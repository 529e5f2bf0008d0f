import Longform.Proofs.Calls

/-!
# The embeds that a run meets

`Meets load r nodes q link` says that the call of an embed comes of resolving
blocks, and in which state it is made. Whatever a run does to the store, to what
is known and to the warnings, it does in a search for such an embed, so that a
property of runs can be shown search by search, with what is known of the place
where each of them is made.

* `Meets.along`: what is handed on from call to call holds of the embeds that are
  met.
* `Meets.children`, `Meets.item`, `Meets.content` and the like follow the rules
  of a run.
* `Resolves.keepsMeeting`: what the searches for the embeds that are met keep,
  the run keeps.
* `Meets.keepsMeeting`: it holds too wherever an embed is met, also when the run
  has no end.
-/

namespace Longform.Resolver

open Relation (ReflTransGen)

variable {σ : Type} [Store σ] {load : Document → Step σ Note} {P : AtSplice σ} {fuel : Nat}
  {r r' r₁ q : Resolver σ} {link l : Link} {n : Node} {nodes : List Node} {out : Resolved}

/-- Resolving `nodes` from `r` comes to the embed `link` in the state `q`. -/
def Meets (load : Document → Step σ Note) (r : Resolver σ) (nodes : List Node) (q : Resolver σ)
    (link : Link) : Prop :=
  ReflTransGen (Calls load) (r, .forest nodes) (q, .embed link)

/-- What calls hand on to the calls that they make, holds of every embed that is met. -/
theorem Meets.along {J : Resolver σ → Call → Prop}
    (step : ∀ {r c q c'}, Calls load (r, c) (q, c') → J r c → J q c')
    (start : J r (.forest nodes)) (met : Meets load r nodes q link) : J q (.embed link) := by
  have whole : ∀ {call}, ReflTransGen (Calls load) (r, .forest nodes) call → J call.1 call.2 := by
    intro call path
    induction path with
    | refl => exact start
    | tail _ next ih => exact step next ih
  exact whole met

/-! ## Calls that have ended -/

theorem Resolves.after? (h : Resolves load P fuel r nodes out r') :
    Call.after? load fuel r (.forest nodes) = some r' := by
  rw [Call.after?, h.on]
  rfl

/-- A list ends where its first item and the list of the others do. -/
theorem after?_list {kind : ListKind} {item : List Node} {items : List (List Node)} {fuel' : Nat}
    (first : Call.after? load fuel r (.forest item) = some r₁)
    (others : Call.after? load fuel' r₁ (.forest [.list kind items]) = some r') :
    Call.after? load (max fuel fuel') r (.forest [.list kind (item :: items)]) = some r' := by
  obtain ⟨⟨_, _⟩, head, rfl⟩ := Option.map_eq_some_iff.1 first
  obtain ⟨⟨_, _⟩, tail, rfl⟩ := Option.map_eq_some_iff.1 others
  obtain ⟨first, rfl, -⟩ := Resolves.of_on head
  obtain ⟨rest, rfl, derived⟩ := Resolves.of_on tail
  obtain ⟨items', nodes', references, rfl⟩ := derived.of_list
  have head' := walk_on_of_le (Nat.le_max_left fuel fuel') head
  have tail' := walk_on_of_le (Nat.le_max_right fuel fuel') tail
  have whole := walk_item_on head' tail'
  rw [Call.after?, whole]
  rfl

/-! ## Where an embed is met -/

theorem Meets.here : Meets load r (.embed link :: nodes) r link :=
  .single .embed

theorem Meets.children {level : Nat} {title : List Inline} {children : List Node}
    (met : Meets load (r.opened ⟨Inline.plainText title, level⟩) children q link) :
    Meets load r (.heading level title children :: nodes) q link :=
  .head .children met

theorem Meets.rest (ended : Call.after? load fuel r (.forest [n]) = some r₁)
    (met : Meets load r₁ nodes q link) : Meets load r (n :: nodes) q link :=
  .head (.rest ended) met

theorem Meets.item {kind : ListKind} {item : List Node} {items : List (List Node)}
    (met : Meets load r item q link) :
    Meets load r (.list kind (item :: items) :: nodes) q link :=
  .head .list (.head .item met)

/-- What is met in a list after its first item, or behind the list, is met in the whole of it. -/
theorem Meets.items {kind : ListKind} {item : List Node} {items : List (List Node)}
    (ended : Call.after? load fuel r (.forest item) = some r₁)
    (met : Meets load r₁ (.list kind items :: nodes) q link) :
    Meets load r (.list kind (item :: items) :: nodes) q link := by
  rcases ReflTransGen.cases_head met with impossible | ⟨⟨r₂, c⟩, step, later⟩
  · cases impossible
  · cases step with
    | list => exact .head .list (.head (.items ended) later)
    | rest others => exact .head (.rest (after?_list ended others)) later

theorem Meets.content {frame : Frame} {content : List Node}
    (sought : Seeks load r link (.content frame content) r₁)
    (met : Meets load (r₁.opened frame).entered content q l) :
    Meets load r (.embed link :: nodes) q l :=
  .head .embed (.head (.content sought) met)

/-! ## Runs -/

/-- The property `I` has nothing to do with the place of a resolver, and is kept by the searches for
those embeds of which `A` says that they may be met. -/
structure Stable (load : Document → Step σ Note) (A : Resolver σ → Link → Prop)
    (I : Resolver σ → Prop) : Prop where
  anywhere : ∀ (r : Resolver σ) frames depth, I r → I { r with frames, depth }
  searches : ∀ {q link t q'}, A q link → Seeks load q link t q' → I q → I q'

variable {I : Resolver σ → Prop} {A : Resolver σ → Link → Prop}

/-- What is kept by every search for an embed that a run meets, is kept by the run. -/
theorem Resolves.keepsMeeting (stable : Stable load A I)
    (h : Resolves load P fuel r nodes out r') (met : ∀ q link, Meets load r nodes q link → A q link)
    (holds : I r) : I r' := by
  induction h with
  | nil => exact holds
  | heading inside _ ihInner ihRest =>
    have ended := (Resolves.heading inside .nil).after?
    have inner := ihInner (fun q link h => met q link h.children) (stable.anywhere _ _ _ holds)
    exact ihRest (fun q link h => met q link (h.rest ended)) (stable.anywhere _ _ _ inner)
  | @leaf fuel n _ _ r _ isLeaf _ ih =>
    have alone : Resolves load Anyhow fuel r [n] (Resolver.leaf n ++ .empty) r :=
      .leaf isLeaf .nil
    have ended := alone.after?
    exact ih (fun q link h => met q link (h.rest ended)) holds
  | @noItems fuel kind _ _ r _ _ ih =>
    have alone : Resolves load Anyhow fuel r [.list kind []] ⟨[.list kind []], .empty⟩ r :=
      .noItems .nil
    have ended := alone.after?
    exact ih (fun q link h => met q link (h.rest ended)) holds
  | item inside _ ihItem ihRest =>
    have first := ihItem (fun q link h => met q link h.item) holds
    exact ihRest (fun q link h => met q link (h.items inside.after?)) first
  | @done fuel link _ first _ r r₁ _ sought _ ih =>
    have alone : Resolves load Anyhow (fuel + 1) r [.embed link] (first ++ .empty) r₁ :=
      .done sought .nil
    have ended := alone.after?
    have here := stable.searches (met _ _ .here) sought holds
    exact ih (fun q link h => met q link (h.rest ended)) here
  | @splice fuel _ frame _ _ _ _ _ r₁ r₂ _ sought inside atSplice _ ihInner ihRest =>
    have ended := (Resolves.splice sought inside atSplice .nil).after?
    have here : I (r₁.opened frame).entered :=
      stable.anywhere r₁ (frame :: r₁.frames) (r₁.depth + 1)
        (stable.searches (met _ _ .here) sought holds)
    have inner := ihInner (fun q link h => met q link (h.content sought)) here
    have after : I r₂.left.closed := stable.anywhere r₂ r₂.frames.tail (r₂.depth - 1) inner
    exact ihRest (fun q link h => met q link (h.rest ended)) after

/-- What is met in the first block of a forest is met in the forest. -/
theorem Meets.first (met : Meets load r [n] q link) : Meets load r (n :: nodes) q link := by
  rcases ReflTransGen.cases_head met with impossible | ⟨⟨r₂, c⟩, step, later⟩
  · cases impossible
  · cases step with
    | children => exact .head .children later
    | list => exact .head .list later
    | embed => exact .head .embed later
    | rest ended =>
      -- After the only block nothing is left to be met.
      rcases ReflTransGen.cases_head later with impossible | ⟨_, step, -⟩
      · cases impossible
      · cases step

/-- What is kept by every search for an embed that comes of a call, is kept by the calls that it
makes. -/
theorem Calls.keepsMeeting {c d : Call} (stable : Stable load A I)
    (h : Calls load (r, c) (r', d))
    (met : ∀ q link, ReflTransGen (Calls load) (r, c) (q, .embed link) → A q link)
    (holds : I r) : I r' := by
  cases h with
  | children => exact stable.anywhere _ _ _ holds
  | list => exact holds
  | embed => exact holds
  | rest ended =>
    obtain ⟨_, derived⟩ := Call.resolves_of_after? ended
    exact derived.keepsMeeting stable (fun q link h => met q link h.first) holds
  | item => exact holds
  | items ended =>
    obtain ⟨_, derived⟩ := Call.resolves_of_after? ended
    exact derived.keepsMeeting stable (fun q link h => met q link (.head .item h)) holds
  | @content link frame _ _ r₁ sought =>
    have here := stable.searches (met r link .refl) sought holds
    exact stable.anywhere r₁ (frame :: r₁.frames) (r₁.depth + 1) here

/-- What is kept by every search for an embed that is met, holds wherever an embed is met. -/
theorem Meets.keepsMeeting (stable : Stable load A I) (here : Meets load r nodes q link)
    (met : ∀ q link, Meets load r nodes q link → A q link) (holds : I r) : I q := by
  have along : ∀ {call}, ReflTransGen (Calls load) (r, .forest nodes) call → I call.1 := by
    intro call path
    induction path with
    | refl => exact holds
    | tail before step ih =>
      exact step.keepsMeeting stable (fun q link h => met q link (before.trans h)) ih
  exact along here

end Longform.Resolver
