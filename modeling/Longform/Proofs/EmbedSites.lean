import Longform.Proofs.Levels

/-!
# Embeds at different places

Of the headings that are open where an embed stands, only the level of the innermost
one matters, and it shows in nothing but the levels of the headings that are put in.

* `Resolves.standing`: a run is the same below other headings, as long as the
  innermost one has the same level.
* `embed_on_standing`: what is put in below any headings is one forest, raised by the
  level of the innermost one.
* `resolveEmbed_raised`: so there is one result of an embed for all places.
-/

namespace Longform

namespace Node

/-- A forest whose headings are deeper by `depth`, but for those in list items. -/
def raised (depth : Nat) (nodes : List Node) : List Node := relevelOuter (· + depth) nodes

theorem relevelOuter_relevelOuter (f g : Nat → Nat) (nodes : List Node) :
    relevelOuter f (relevelOuter g nodes) = relevelOuter (fun l => f (g l)) nodes := by
  induction nodes using headingInduction with
  | nil => simp only [relevelOuter]
  | heading level title children nodes ihChildren ihNodes =>
    simp only [relevelOuter, relevelOuterOne, ihChildren, ihNodes]
  | other n nodes other ih =>
    simp only [relevelOuter, relevelOuterOne_of_level? _ other, ih]

/-- Where a forest is moved to only raises its headings. -/
theorem rebase_eq_raised (base ambient : Nat) (nodes : List Node) :
    rebase base ambient nodes = raised ambient (relevelOuter (· - base) nodes) := by
  have shift : shiftedLevel base ambient = fun l => l - base + ambient := by
    funext l
    exact Nat.add_comm _ _
  rw [raised, relevelOuter_relevelOuter, rebase_eq_relevelOuter, shift]

end Node

namespace Resolver

open Node (raised)

variable {σ : Type}

/-- The resolver below other headings. -/
def standing (r : Resolver σ) (frames : List Frame) : Resolver σ := { r with frames }

variable [Store σ] {P : AtSplice σ} {fuel : Nat} {r r' : Resolver σ} {link : Link} {t : Target}
  {nodes : List Node} {out : Resolved} {frames : List Frame}

/-- How a note is come by does not depend on the open headings. -/
theorem load_on_standing (d : Document) (r : Resolver σ) (frames : List Frame) :
    (Step.load d).on (r.standing frames) =
      ((Step.load d).on r).map fun (outcome, r') => (outcome, r'.standing frames) :=
  load_on_change (·.standing frames) (fun _ => rfl) (fun _ => rfl) (fun _ _ => rfl)
    (fun _ _ _ => rfl) d r

/-- A search is the same below any headings. -/
theorem Seeks.standing (h : Seeks Step.load r link t r') (frames : List Frame) :
    Seeks Step.load (r.standing frames) link t (r'.standing frames) := by
  have loads : ∀ {d warnings store outcome r₁},
      (Step.load d).on (r.searched warnings store) = some (outcome, r₁) →
      (Step.load d).on ((r.standing frames).searched warnings store) =
        some (outcome, r₁.standing frames) := by
    intro d warnings store outcome r₁ loaded
    change (Step.load d).on ((r.searched warnings store).standing frames) = _
    rw [load_on_standing, loaded]
    rfl
  cases h with
  | figure isImage found => exact .figure isImage found
  | noImage isImage found => exact .noImage isImage found
  | tooDeep noImage reached => exact .tooDeep noImage reached
  | missing noImage free found => exact .missing noImage free found
  | @unloadable d warnings store e r₁ noImage free found loaded =>
    have there : Seeks Step.load (r.standing frames) link (.done .empty)
        ((r₁.standing frames).warned _) := .unloadable noImage free found (loads loaded)
    exact there
  | @noHeading d warnings store note r₁ noImage free found loaded aim =>
    have there : Seeks Step.load (r.standing frames) link (.done .empty)
        ((r₁.standing frames).warned _) := .noHeading noImage free found (loads loaded) aim
    exact there
  | content noImage free found loaded aim => exact .content noImage free found (loads loaded) aim

/-- A run is the same below other headings of which the innermost one has the same level. -/
theorem Resolves.standing (h : Resolves Step.load P fuel r nodes out r')
    (level : (r.standing frames).ambientLevel = r.ambientLevel) :
    Resolves Step.load Anyhow fuel (r.standing frames) nodes out (r'.standing frames) := by
  have back : ∀ {r r₁ : Resolver σ} {frames : List Frame}, r₁.place = r.place →
      (r.standing frames).ambientLevel = r.ambientLevel →
      (r₁.standing frames).ambientLevel = r₁.ambientLevel := by
    intro r r₁ frames same level
    rw [ambientLevel_of_place same]
    exact level
  induction h generalizing frames with
  | nil => exact .nil
  | @heading fuel level' title children nodes inner rest r r₁ r₂ inside _ ihInner ihRest =>
    have inner := @ihInner (⟨Inline.plainText title, level'⟩ :: frames) rfl
    exact .heading inner (ihRest (back (place_closed (inside.place staysAt_load)) level))
  | leaf isLeaf _ ih => exact .leaf isLeaf (ih level)
  | noItems _ ih => exact .noItems (ih level)
  | item first _ ihItem ihRest =>
    exact .item (ihItem level) (ihRest (back (first.place staysAt_load) level))
  | done sought _ ih =>
    exact .done (sought.standing _) (ih (back (sought.place staysAt_load) level))
  | @splice _ _ frame _ _ _ _ r r₁ r₂ _ sought inside _ _ ihInner ihRest =>
    have here := sought.place staysAt_load
    have after := (place_closed (place_left (inside.place staysAt_load))).trans here
    have inner := @ihInner (frame :: frames) rfl
    rw [← back here level]
    exact .splice (sought.standing frames) inner trivial (ihRest (back after level))

/-- A figure has no heading that could be raised. -/
theorem Seeks.raised_done {first : Resolved} (h : Seeks Step.load r link (.done first) r')
    (depth : Nat) : raised depth first.nodes = first.nodes := by
  cases h with
  | figure _ _ => simp [raised, Node.relevelOuter, Node.relevelOuterOne]
  | noImage _ _ => rw [raised, Resolved.empty, Node.relevelOuter]
  | tooDeep _ _ => rw [raised, Resolved.empty, Node.relevelOuter]
  | missing _ _ _ => rw [raised, Resolved.empty, Node.relevelOuter]
  | unloadable _ _ _ _ => rw [raised, Resolved.empty, Node.relevelOuter]
  | noHeading _ _ _ _ _ => rw [raised, Resolved.empty, Node.relevelOuter]

/-- What is put in the place of an embed below any headings is one forest, raised by the level of
the innermost one, and nothing else depends on them. -/
theorem embed_on_standing {outcome : Except Error Resolved}
    (run : (embed Step.load fuel link).on r = some (outcome, r')) :
    ∃ nodes references, ∀ frames, (embed Step.load fuel link).on (r.standing frames) =
      some (.ok ⟨raised (r.standing frames).ambientLevel nodes, references⟩,
        r'.standing frames) := by
  cases fuel with
  | zero => cases run
  | succ fuel =>
    rw [embed] at run
    obtain ⟨t, r₁, sought, run⟩ := Action.of_on_bind_of_spec Seeks.of_on run
    cases t with
    | done first =>
      cases run
      refine ⟨first.nodes, first.references, fun frames => ?_⟩
      rw [embed_on_done (sought.standing frames), sought.raised_done]
    | content frame content =>
      change (splice (walk (embed Step.load fuel)) frame content).on r₁ = _ at run
      rw [splice_on] at run
      obtain ⟨⟨_, r₂⟩, inside, same⟩ := Option.map_eq_some_iff.1 run
      cases same
      obtain ⟨inner, rfl, derived⟩ := Resolves.of_on inside
      refine ⟨Node.relevelOuter (· - frame.level) inner.nodes, inner.references, fun frames => ?_⟩
      have there : Resolves Step.load Anyhow fuel
          ((r₁.standing frames).opened frame).entered content inner
          (r₂.standing (frame :: frames)) := derived.standing rfl
      rw [embed_on_content (sought.standing frames) there.on, moved, Node.rebase_eq_raised]
      rfl

/-- There is one result of resolving an embed for all the places where it may stand. Below any open
headings the outcome, or that there is none, is the same but for the levels of the headings that are
put in: each that is reached through headings alone is as much deeper as the innermost open heading
is deep. The warnings, the notes that are known and the store are the same after it. The store may
be any, also one that records what is asked of it, so that the same is searched and read. -/
theorem resolveEmbed_raised (r : Resolver σ) (link : Link) :
    ∃ result : Option (List Node × References × Resolver σ), ∀ frames,
      (resolveEmbed link).on (r.standing frames) =
        result.map fun (nodes, references, r') =>
          (.ok ⟨raised (r.standing frames).ambientLevel nodes, references⟩,
            r'.standing frames) := by
  have once : ∀ frames, (resolveEmbed link).on (r.standing frames) =
      (embed Step.load r.fuel link).on (r.standing frames) := fun _ => rfl
  rcases run : (embed Step.load r.fuel link).on r with _ | ⟨outcome, r'⟩
  · refine ⟨none, fun frames => ?_⟩
    rw [once, Option.map_none, Option.eq_none_iff_forall_ne_some]
    rintro ⟨outcome, q⟩ run'
    -- An end that is reached below other headings would be reached here too.
    obtain ⟨nodes, references, same⟩ := embed_on_standing run'
    cases run.symm.trans (same r.frames)
  · obtain ⟨nodes, references, same⟩ := embed_on_standing run
    refine ⟨some (nodes, references, r'), fun frames => ?_⟩
    rw [once, same frames, Option.map_some]

end Resolver

end Longform
