import Longform.Proofs.Resolves

/-!
# Fuel only bounds

More fuel for nested embeds never changes the outcome of a run, it only lets more
runs have one. `Action.Below a b` says that `b` ends as `a` does wherever `a`
ends, and everything that resolves blocks keeps this relation between the ways to
resolve an embed.

* `walk_below`: a forest is resolved alike with a better way to resolve embeds.
* `embed_below`: an embed is resolved alike with more fuel.
* `Unrolls` is a run with as much fuel as it needs. `Unrolls.unique` says that it
  has one outcome, and `Unrolls.of_on` that a run of `unroll` is such a run.
-/

namespace Longform

namespace Action

variable {S α β : Type} {a b : Action S α}

/-- Where `a` has an outcome, `b` has the same. -/
def Below (a b : Action S α) : Prop := ∀ s p, a.on s = some p → b.on s = some p

theorem Below.refl (a : Action S α) : Below a a := fun _ _ run => run

theorem diverge_below (a : Action S α) : Below diverge a := by
  intro s p run
  cases run

theorem Below.bind {f g : α → Action S β} (first : Below a b) (next : ∀ x, Below (f x) (g x)) :
    Below (a >>= f) (b >>= g) := by
  intro s ⟨y, s''⟩ run
  rcases of_on_bind run with ⟨x, s', head, rest⟩ | ⟨e, failed, rfl⟩
  · rw [on_bind_of_ok (first s _ head)]
    exact next x s' _ rest
  · exact on_bind_of_error (first s _ failed)

theorem Below.observe (h : Below a b) : Below (observe a) (observe b) := by
  intro s p run
  rw [on_observe] at run ⊢
  obtain ⟨q, inside, rfl⟩ := Option.map_eq_some_iff.1 run
  rw [h s q inside, Option.map_some]

end Action

namespace Resolver

open Longform.Action (Below)

variable {σ : Type}

/-! ## Better ways to resolve embeds -/

section

variable {α : Type} {step step' : Step σ α} {e e' : Link → Step σ Resolved}

theorem under_below (frame : Frame) (h : Below step step') :
    Below (Step.under frame step) (Step.under frame step') := by
  rw [Step.under, Step.under]
  exact .bind (.refl _) fun _ => .bind h.observe fun _ => .refl _

theorem nested_below (h : Below step step') : Below (Step.nested step) (Step.nested step') := by
  rw [Step.nested, Step.nested]
  exact .bind (.refl _) fun _ => .bind h.observe fun _ => .refl _

mutual

theorem walkOne_below (h : ∀ link, Below (e link) (e' link)) (n : Node) :
    Below (walkOne e n) (walkOne e' n) := by
  match n with
  | .heading level title children =>
    rw [walkOne, walkOne]
    exact .bind (under_below _ (walk_below h children)) fun _ => .refl _
  | .list kind items =>
    rw [walkOne, walkOne]
    exact .bind (walkItems_below h items) fun _ => .refl _
  | .embed link => exact h link
  | .paragraph content => exact .refl _
  | .figure file caption => exact .refl _
  | .code language content => exact .refl _
  | .quote lines => exact .refl _
  | .displayMath text => exact .refl _

theorem walk_below (h : ∀ link, Below (e link) (e' link)) (nodes : List Node) :
    Below (walk e nodes) (walk e' nodes) := by
  match nodes with
  | [] => exact .refl _
  | n :: ns =>
    rw [walk, walk]
    exact .bind (walkOne_below h n) fun _ => .bind (walk_below h ns) fun _ => .refl _

theorem walkItems_below (h : ∀ link, Below (e link) (e' link)) (items : List (List Node)) :
    Below (walkItems e items) (walkItems e' items) := by
  match items with
  | [] => exact .refl _
  | item :: items =>
    rw [walkItems, walkItems]
    exact .bind (walk_below h item) fun _ => .bind (walkItems_below h items) fun _ => .refl _

end

theorem splice_below {w w' : List Node → Step σ Resolved} (h : ∀ nodes, Below (w nodes) (w' nodes))
    (frame : Frame) (content : List Node) :
    Below (splice w frame content) (splice w' frame content) := by
  rw [splice, splice]
  exact .bind (.refl _) fun _ =>
    .bind (under_below frame (nested_below (h content))) fun _ => .refl _

end

/-! ## More fuel -/

variable [Store σ] {load : Document → Step σ Note} {fuel fuel' : Nat} {r r' r'' : Resolver σ}
  {nodes : List Node} {out out' : Resolved}

/-- With more fuel an embed is resolved alike. -/
theorem embed_below (le : fuel ≤ fuel') (link : Link) :
    Below (embed load fuel link) (embed load fuel' link) := by
  induction fuel generalizing fuel' link with
  | zero => exact Action.diverge_below _
  | succ fuel ih =>
    obtain ⟨fuel', rfl⟩ : ∃ f, fuel' = f + 1 := ⟨fuel' - 1, by omega⟩
    rw [embed, embed]
    refine .bind (.refl _) fun t => ?_
    cases t with
    | done resolved => exact .refl _
    | content frame content =>
      have deeper : ∀ link, Below (embed load fuel link) (embed load fuel' link) :=
        ih (Nat.le_of_succ_le_succ le)
      exact splice_below (walk_below deeper) frame content

/-- With more fuel a forest is resolved alike. -/
theorem walk_on_of_le {p : Except Error Resolved × Resolver σ} (le : fuel ≤ fuel')
    (run : (walk (embed load fuel) nodes).on r = some p) :
    (walk (embed load fuel') nodes).on r = some p :=
  walk_below (embed_below le) nodes r p run

/-- The blocks are resolved when there is fuel for all the embeds that are met. -/
def Unrolls (r : Resolver σ) (nodes : List Node) (out : Resolved) (r' : Resolver σ) : Prop :=
  ∃ fuel, (walk (embed Step.load fuel) nodes).on r = some (.ok out, r')

/-- A run that ends is one with enough fuel, and no failure. -/
theorem Unrolls.of_on {outcome : Except Error Resolved}
    (run : (unroll nodes).on r = some (outcome, r')) :
    ∃ out, outcome = .ok out ∧ Unrolls r nodes out r' := by
  change (walk (embed Step.load r.fuel) nodes).on r = _ at run
  obtain ⟨out, rfl, -⟩ := Resolves.of_on run
  exact ⟨out, rfl, r.fuel, run⟩

theorem Unrolls.exists_resolves (h : Unrolls r nodes out r') :
    ∃ fuel, Resolves Step.load Anyhow fuel r nodes out r' := by
  obtain ⟨fuel, run⟩ := h
  obtain ⟨_, same, derived⟩ := Resolves.of_on run
  cases same
  exact ⟨fuel, derived⟩

theorem Unrolls.unique (h : Unrolls r nodes out r') (h' : Unrolls r nodes out' r'') :
    out = out' ∧ r' = r'' := by
  obtain ⟨fuel, run⟩ := h
  obtain ⟨fuel', run'⟩ := h'
  have one := walk_on_of_le (Nat.le_max_left fuel fuel') run
  have other := walk_on_of_le (Nat.le_max_right fuel fuel') run'
  have same := one.symm.trans other
  cases same
  exact ⟨rfl, rfl⟩

end Resolver

end Longform
