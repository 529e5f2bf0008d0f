import Longform.Proofs.Resolves

/-!
# Blocks without embeds

Blocks that hold no embed resolve to themselves, in any state and without
changing it (`Resolves.of_embedFree`), and so do the items of a list in front of
blocks that may hold some (`Resolves.list_of_embedFree`).
-/

namespace Longform

namespace Node

mutual

/-- Whether a block is no embed and holds none. -/
def embedFreeOne : Node → Bool
  | .heading _ _ children => embedFree children
  | .list _ items => embedFreeItems items
  | .embed _ => false
  | .paragraph _ | .figure _ _ | .code _ _ | .quote _ | .displayMath _ => true

/-- Whether there is no embed anywhere in a forest. -/
def embedFree : List Node → Bool
  | [] => true
  | n :: ns => embedFreeOne n && embedFree ns

/-- Whether there is no embed anywhere in the items of a list. -/
def embedFreeItems : List (List Node) → Bool
  | [] => true
  | item :: items => embedFree item && embedFreeItems items

end

theorem embedFreeOne_of_isLeaf {n : Node} (isLeaf : IsLeaf n) : embedFreeOne n = true := by
  cases n with
  | heading level title children => exact isLeaf.elim
  | list kind items => exact isLeaf.elim
  | embed link => exact isLeaf.elim
  | _ => rw [embedFreeOne]

theorem embedFree_append (a b : List Node) : embedFree (a ++ b) = (embedFree a && embedFree b) := by
  induction a with
  | nil => rw [List.nil_append, embedFree, Bool.true_and]
  | cons n a ih => rw [List.cons_append, embedFree, embedFree, ih, Bool.and_assoc]

/-- Moving a forest brings no embed into it. -/
theorem embedFree_rebase (base ambient : Nat) (nodes : List Node) :
    embedFree (rebase base ambient nodes) = embedFree nodes := by
  induction nodes using headingInduction with
  | nil => rw [rebase]
  | heading level title children nodes ihChildren ihNodes =>
    rw [rebase, rebaseOne, embedFree, embedFree, embedFreeOne, embedFreeOne, ihChildren, ihNodes]
  | other n nodes h ih => rw [rebase, rebaseOne_of_level? h, embedFree, embedFree, ih]

end Node

namespace Resolver

open Node (embedFree embedFreeItems citationKeys)

variable {σ : Type} [Store σ] {load : Document → Step σ Note} {P : AtSplice σ} {fuel : Nat}
  {r r' : Resolver σ} {nodes : List Node} {out : Resolved}

/-- Blocks without embeds resolve to themselves, and refer to what they cite. -/
theorem Resolves.of_embedFree (free : embedFree nodes = true) :
    Resolves load P fuel r nodes ⟨nodes, ⟨[], citationKeys nodes⟩⟩ r := by
  induction nodes using Node.forestInduction generalizing r with
  | nil =>
    rw [citationKeys]
    exact .nil
  | heading level title children nodes ihChildren ihNodes =>
    rw [embedFree, Node.embedFreeOne, Bool.and_eq_true] at free
    have whole : Resolves load P fuel r (.heading level title children :: nodes) _ r :=
      .heading (ihChildren free.1) (ihNodes free.2)
    rw [citationKeys, Node.keys]
    exact whole
  | leaf n nodes isLeaf ih =>
    rw [embedFree, Bool.and_eq_true] at free
    rw [citationKeys]
    exact .leaf isLeaf (ih free.2)
  | noItems kind nodes ih =>
    rw [embedFree, Bool.and_eq_true] at free
    rw [citationKeys, Node.keys, Node.itemKeys]
    exact .noItems (ih free.2)
  | item kind item items nodes ihItem ih =>
    rw [embedFree, Node.embedFreeOne, embedFreeItems, Bool.and_eq_true, Bool.and_eq_true] at free
    obtain ⟨⟨freeItem, freeItems⟩, freeNodes⟩ := free
    have others : embedFree (.list kind items :: nodes) = true := by
      rw [embedFree, Node.embedFreeOne, Bool.and_eq_true]
      exact ⟨freeItems, freeNodes⟩
    have rest : Resolves load P fuel r (.list kind items :: nodes) _ r := ih others
    rw [citationKeys, Node.keys] at rest
    have whole : Resolves load P fuel r (.list kind (item :: items) :: nodes) _ r :=
      .item (ihItem freeItem) rest
    rw [citationKeys, Node.keys, Node.itemKeys, List.append_assoc]
    exact whole
  | embed link nodes ih =>
    rw [embedFree, Node.embedFreeOne] at free
    cases free

/-- A list without embeds is put in front of what the blocks after it resolve to. -/
theorem Resolves.list_of_embedFree {items : List (List Node)} (free : embedFreeItems items = true)
    (kind : ListKind) (rest : Resolves load P fuel r nodes out r') :
    ∃ references, Resolves load P fuel r (.list kind items :: nodes)
      ⟨.list kind items :: out.nodes, references⟩ r' := by
  induction items with
  | nil => exact ⟨_, .noItems rest⟩
  | cons item items ih =>
    rw [embedFreeItems, Bool.and_eq_true] at free
    obtain ⟨references, others⟩ := ih free.2
    exact ⟨_, .item (.of_embedFree free.1) others⟩

end Resolver

end Longform
