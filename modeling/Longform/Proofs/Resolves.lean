import Longform.Proofs.Forest
import Longform.Proofs.Seeks

/-!
# Runs of the resolver as derivations

`Resolves load P fuel r nodes out r'` is the run of `Resolver.walk` from `r` to
`r'` as a derivation, one rule for each thing that happens on the way. `fuel`
bounds how deeply embeds are nested, and `P` is a condition that holds wherever
the blocks of an embed have been resolved and are about to be moved.

* `Resolves.of_on`: a run that has an outcome is a derivation. In particular its
  outcome is no failure.
* `Resolves.on`: a derivation is a run.
* `Resolves.keeps`: what every search keeps, a run keeps.
* `Resolves.place`: a run leaves the open headings, the depth and the limit as
  they were.
-/

namespace Longform.Resolver

open Node (IsLeaf)

variable {σ : Type}

/-! ## Steps of the walk -/

/-- A leaf as it is put into the result. -/
def leaf (n : Node) : Resolved := ⟨[n], ⟨[], n.keys⟩⟩

/-- A heading with its blocks resolved. -/
def underHeading (level : Nat) (title : List Inline) (inner : Resolved) : Resolved :=
  ⟨[.heading level title inner.nodes], ⟨[], Inline.citationKeys title⟩ ++ inner.references⟩

/-- Resolved blocks, moved from under a heading of level `base` to under one of level `ambient`. -/
def moved (base ambient : Nat) (inner : Resolved) : Resolved :=
  { inner with nodes := Node.rebase base ambient inner.nodes }

section Steps

variable {e : Link → Step σ Resolved} {α : Type} {nodes : List Node} {r r' : Resolver σ}

/-- What is done under a heading is done with the heading open, and closed after it. -/
theorem under_on (frame : Frame) (step : Step σ α) (r : Resolver σ) :
    (Step.under frame step).on r =
      (step.on (r.opened frame)).map fun (x, r') => (x, r'.closed) := by
  rw [Step.under, Action.on_bind_of_ok (Action.on_modify _ r)]
  simp only [Action.on_bind, Action.on_observe]
  rcases step.on (r.opened frame) with _ | ⟨_ | _, _⟩ <;> rfl

theorem nested_on (step : Step σ α) (r : Resolver σ) :
    (Step.nested step).on r = (step.on r.entered).map fun (x, r') => (x, r'.left) := by
  rw [Step.nested, Action.on_bind_of_ok (Action.on_modify _ r)]
  simp only [Action.on_bind, Action.on_observe]
  rcases step.on r.entered with _ | ⟨_ | _, _⟩ <;> rfl

theorem heading_on (level : Nat) (title : List Inline) (children : List Node) (r : Resolver σ) :
    (walkOne e (.heading level title children)).on r =
      ((walk e children).on (r.opened ⟨Inline.plainText title, level⟩)).map fun (x, r') =>
        (x.map (underHeading level title), r'.closed) := by
  rw [walkOne, Action.on_bind, under_on]
  rcases (walk e children).on (r.opened ⟨Inline.plainText title, level⟩) with _ | ⟨_ | _, _⟩ <;> rfl

theorem leaf_on {n : Node} (isLeaf : IsLeaf n) (r : Resolver σ) :
    (walkOne e n).on r = some (.ok (leaf n), r) := by
  cases n with
  | paragraph content => rfl
  | figure file caption => rfl
  | code language content => rfl
  | quote lines => rfl
  | displayMath text => rfl
  | heading level title children => exact isLeaf.elim
  | list kind items => exact isLeaf.elim
  | embed link => exact isLeaf.elim

theorem list_on (kind : ListKind) (items : List (List Node)) (r : Resolver σ) :
    (walkOne e (.list kind items)).on r =
      ((walkItems e items).on r).map fun (x, r') =>
        (x.map fun (items', references) => ⟨[.list kind items'], references⟩, r') := by
  rw [walkOne, Action.on_bind]
  rcases (walkItems e items).on r with _ | ⟨_ | _, _⟩ <;> rfl

theorem noItems_on (kind : ListKind) (r : Resolver σ) :
    (walkOne e (.list kind [])).on r = some (.ok ⟨[.list kind []], .empty⟩, r) := rfl

theorem walk_cons_on {n : Node} {first rest : Resolved} {r₁ : Resolver σ}
    (head : (walkOne e n).on r = some (.ok first, r₁))
    (tail : (walk e nodes).on r₁ = some (.ok rest, r')) :
    (walk e (n :: nodes)).on r = some (.ok (first ++ rest), r') := by
  rw [walk, Action.on_bind_of_ok head, Action.on_bind_of_ok tail]
  rfl

theorem of_walk_cons_on {n : Node} {out : Resolved}
    (run : (walk e (n :: nodes)).on r = some (.ok out, r')) :
    ∃ first r₁ rest, (walkOne e n).on r = some (.ok first, r₁) ∧
      (walk e nodes).on r₁ = some (.ok rest, r') ∧ out = first ++ rest := by
  rw [walk] at run
  obtain ⟨first, r₁, head, run⟩ := Action.of_on_bind_ok run
  obtain ⟨rest, r₂, tail, run⟩ := Action.of_on_bind_ok run
  cases run
  exact ⟨first, r₁, rest, head, tail, rfl⟩

/-- After a block that is resolved the walk goes on with the others. -/
theorem walk_cons_on_of_ok {n : Node} {first : Resolved} {r₁ : Resolver σ}
    (head : (walkOne e n).on r = some (.ok first, r₁)) (nodes : List Node) :
    (walk e (n :: nodes)).on r =
      ((walk e nodes).on r₁).map fun (x, r') => (x.map (first ++ ·), r') := by
  rw [walk, Action.on_bind_of_ok head, Action.on_bind]
  rcases (walk e nodes).on r₁ with _ | ⟨_ | _, _⟩ <;> rfl

/-- After blocks that are resolved the walk goes on with the others. -/
theorem walk_append_on_of_ok {first : Resolved} {r₁ : Resolver σ}
    (run : (walk e nodes).on r = some (.ok first, r₁)) (more : List Node) :
    (walk e (nodes ++ more)).on r =
      ((walk e more).on r₁).map fun (x, r') => (x.map (first ++ ·), r') := by
  induction nodes generalizing r first with
  | nil =>
    cases run
    rw [List.nil_append]
    rcases (walk e more).on r₁ with _ | ⟨_ | _, _⟩ <;> rfl
  | cons n nodes ih =>
    obtain ⟨alone, r₂, rest, head, tail, rfl⟩ := of_walk_cons_on run
    rw [List.cons_append, walk_cons_on_of_ok head, ih tail]
    rcases (walk e more).on r₁ with _ | ⟨_ | last, _⟩
    · rfl
    · rfl
    · simp only [Option.map_some, Except.map, Resolved.append_assoc]

theorem walkItems_cons_on {item : List Node} {items items' : List (List Node)} {first : Resolved}
    {references : References} {r₁ : Resolver σ}
    (head : (walk e item).on r = some (.ok first, r₁))
    (tail : (walkItems e items).on r₁ = some (.ok (items', references), r')) :
    (walkItems e (item :: items)).on r =
      some (.ok (first.nodes :: items', first.references ++ references), r') := by
  rw [walkItems, Action.on_bind_of_ok head, Action.on_bind_of_ok tail]
  rfl

/-- A list with one more item is resolved item first. -/
theorem walk_item_on {kind : ListKind} {item : List Node}
    {items items' : List (List Node)} {nodes' : List Node} {first : Resolved}
    {references : References} {r₁ : Resolver σ}
    (head : (walk e item).on r = some (.ok first, r₁))
    (tail : (walk e (.list kind items :: nodes)).on r₁ =
      some (.ok ⟨.list kind items' :: nodes', references⟩, r')) :
    (walk e (.list kind (item :: items) :: nodes)).on r =
      some (.ok ⟨.list kind (first.nodes :: items') :: nodes', first.references ++ references⟩,
        r') := by
  obtain ⟨_, r₂, rest, others, following, same⟩ := of_walk_cons_on tail
  rw [list_on] at others
  obtain ⟨⟨_ | ⟨items'', found⟩, _⟩, inside, eq⟩ := Option.map_eq_some_iff.1 others
  · cases eq
  cases eq
  have whole : (walkOne e (.list kind (item :: items))).on r =
      some (.ok ⟨[.list kind (first.nodes :: items'')], first.references ++ found⟩, r₂) := by
    rw [list_on, walkItems_cons_on head inside]
    rfl
  rw [walk_cons_on whole following]
  cases same
  congr 3
  exact Resolved.ext rfl (References.append_assoc _ _ _)

/-- The blocks that a link means are resolved inside the embed, with their heading open. -/
theorem splice_on (walk : List Node → Step σ Resolved) (frame : Frame) (content : List Node)
    (r : Resolver σ) :
    (splice walk frame content).on r =
      ((walk content).on (r.opened frame).entered).map fun (x, r') =>
        (x.map (moved frame.level r.ambientLevel), r'.left.closed) := by
  rw [splice, Action.on_bind_of_ok (Action.on_get r), Action.on_bind, under_on, nested_on]
  rcases (walk content).on (r.opened frame).entered with _ | ⟨_ | _, _⟩ <;> rfl

end Steps

/-! ## Places -/

/-- Where a resolver is: the open headings, the depth and the limit of nesting. -/
def place (r : Resolver σ) : List Frame × Nat × Option Nat := (r.frames, r.depth, r.limit)

theorem place_eq_iff {r r₁ : Resolver σ} :
    r₁.place = r.place ↔ r₁.frames = r.frames ∧ r₁.depth = r.depth ∧ r₁.limit = r.limit := by
  simp only [place, Prod.mk.injEq]

theorem place_closed {r r₁ : Resolver σ} {frame : Frame}
    (h : r₁.place = (r.opened frame).place) : r₁.closed.place = r.place := by
  simp only [place, opened, Prod.mk.injEq] at h
  simp only [place, closed, h, List.tail_cons]

theorem place_left {r r₁ : Resolver σ} (h : r₁.place = r.entered.place) :
    r₁.left.place = r.place := by
  simp only [place, entered, Prod.mk.injEq] at h
  simp only [place, left, h, Nat.add_sub_cancel]

theorem ambientLevel_of_place {r r₁ : Resolver σ} (h : r₁.place = r.place) :
    r₁.ambientLevel = r.ambientLevel := by
  obtain ⟨frames, -, -⟩ := place_eq_iff.1 h
  rw [ambientLevel, ambientLevel, frames]

theorem reachedLimit?_of_place {r r₁ : Resolver σ} (h : r₁.place = r.place) :
    r₁.reachedLimit? = r.reachedLimit? := by
  obtain ⟨-, depth, limit⟩ := place_eq_iff.1 h
  rw [reachedLimit?, reachedLimit?, depth, limit]

/-! ## Derivations -/

/-- A condition on the splices of a run: on the resolver at the embed, on the heading whose blocks
are put in, and on these blocks when they are resolved and not moved yet. -/
abbrev AtSplice (σ : Type) := Resolver σ → Frame → List Node → Prop

/-- No condition. -/
def Anyhow : AtSplice σ := fun _ _ _ => True

variable [Store σ]

/-- How the blocks `nodes` are resolved. -/
inductive Resolves (load : Document → Step σ Note) (P : AtSplice σ) :
    Nat → Resolver σ → List Node → Resolved → Resolver σ → Prop
  | nil {fuel : Nat} {r : Resolver σ} : Resolves load P fuel r [] .empty r
  | heading {fuel level : Nat} {title : List Inline} {children nodes : List Node}
    {inner rest : Resolved} {r r₁ r₂ : Resolver σ} :
    Resolves load P fuel (r.opened ⟨Inline.plainText title, level⟩) children inner r₁ →
    Resolves load P fuel r₁.closed nodes rest r₂ →
    Resolves load P fuel r (.heading level title children :: nodes)
      (underHeading level title inner ++ rest) r₂
  | leaf {fuel : Nat} {n : Node} {nodes : List Node} {rest : Resolved} {r r' : Resolver σ} :
    IsLeaf n → Resolves load P fuel r nodes rest r' →
    Resolves load P fuel r (n :: nodes) (leaf n ++ rest) r'
  | noItems {fuel : Nat} {kind : ListKind} {nodes : List Node} {rest : Resolved}
    {r r' : Resolver σ} :
    Resolves load P fuel r nodes rest r' →
    Resolves load P fuel r (.list kind [] :: nodes)
      ⟨.list kind [] :: rest.nodes, rest.references⟩ r'
  | item {fuel : Nat} {kind : ListKind} {item : List Node} {items items' : List (List Node)}
    {nodes nodes' : List Node} {first : Resolved} {references : References}
    {r r₁ r₂ : Resolver σ} :
    Resolves load P fuel r item first r₁ →
    Resolves load P fuel r₁ (.list kind items :: nodes)
      ⟨.list kind items' :: nodes', references⟩ r₂ →
    Resolves load P fuel r (.list kind (item :: items) :: nodes)
      ⟨.list kind (first.nodes :: items') :: nodes', first.references ++ references⟩ r₂
  | done {fuel : Nat} {link : Link} {nodes : List Node} {first rest : Resolved}
    {r r₁ r₂ : Resolver σ} :
    Seeks load r link (.done first) r₁ →
    Resolves load P (fuel + 1) r₁ nodes rest r₂ →
    Resolves load P (fuel + 1) r (.embed link :: nodes) (first ++ rest) r₂
  | splice {fuel : Nat} {link : Link} {frame : Frame} {content nodes : List Node}
    {inner rest : Resolved} {r r₁ r₂ r₃ : Resolver σ} :
    Seeks load r link (.content frame content) r₁ →
    Resolves load P fuel (r₁.opened frame).entered content inner r₂ →
    P r₁ frame inner.nodes →
    Resolves load P (fuel + 1) r₂.left.closed nodes rest r₃ →
    Resolves load P (fuel + 1) r (.embed link :: nodes)
      (moved frame.level r₁.ambientLevel inner ++ rest) r₃

variable {load : Document → Step σ Note} {P Q : AtSplice σ} {fuel : Nat} {r r' : Resolver σ}
  {nodes : List Node} {out : Resolved}

/-! ## Runs are derivations -/

section Sound

variable {e : Link → Step σ Resolved}

/-- The outcome of a step that resolves the block `n` is no failure, and a derivation for the
blocks after `n` becomes one that begins with `n`. -/
def Extends (load : Document → Step σ Note) (fuel : Nat) (n : Node) (r : Resolver σ)
    (outcome : Except Error Resolved) (r₁ : Resolver σ) : Prop :=
  ∃ first, outcome = .ok first ∧ ∀ {nodes rest r₂},
    Resolves load Anyhow fuel r₁ nodes rest r₂ →
    Resolves load Anyhow fuel r (n :: nodes) (first ++ rest) r₂

mutual

theorem walkOne_sound
    (sound : ∀ {link r outcome r₁}, (e link).on r = some (outcome, r₁) →
      Extends load fuel (.embed link) r outcome r₁)
    (n : Node) {r r₁ : Resolver σ} {outcome : Except Error Resolved}
    (run : (walkOne e n).on r = some (outcome, r₁)) : Extends load fuel n r outcome r₁ := by
  match n with
  | .heading level title children =>
    rw [heading_on] at run
    obtain ⟨⟨_, r₂⟩, inside, same⟩ := Option.map_eq_some_iff.1 run
    cases same
    obtain ⟨inner, rfl, derived⟩ := walk_sound sound children inside
    exact ⟨_, rfl, .heading derived⟩
  | .list kind items =>
    rw [list_on] at run
    obtain ⟨⟨_, r₂⟩, inside, same⟩ := Option.map_eq_some_iff.1 run
    cases same
    obtain ⟨⟨items', references⟩, rfl, derived⟩ := walkItems_sound sound kind items inside
    exact ⟨_, rfl, derived⟩
  | .embed link => exact sound run
  | .paragraph content =>
    cases run
    exact ⟨_, rfl, .leaf trivial⟩
  | .figure file caption =>
    cases run
    exact ⟨_, rfl, .leaf trivial⟩
  | .code language content =>
    cases run
    exact ⟨_, rfl, .leaf trivial⟩
  | .quote lines =>
    cases run
    exact ⟨_, rfl, .leaf trivial⟩
  | .displayMath text =>
    cases run
    exact ⟨_, rfl, .leaf trivial⟩

theorem walk_sound
    (sound : ∀ {link r outcome r₁}, (e link).on r = some (outcome, r₁) →
      Extends load fuel (.embed link) r outcome r₁)
    (nodes : List Node) {r r' : Resolver σ} {outcome : Except Error Resolved}
    (run : (walk e nodes).on r = some (outcome, r')) :
    ∃ out, outcome = .ok out ∧ Resolves load Anyhow fuel r nodes out r' := by
  match nodes with
  | [] =>
    cases run
    exact ⟨_, rfl, .nil⟩
  | n :: ns =>
    rw [walk] at run
    obtain ⟨first, r₁, extend, run⟩ := Action.of_on_bind_of_spec (walkOne_sound sound n) run
    obtain ⟨rest, r₂, derived, run⟩ := Action.of_on_bind_of_spec (walk_sound sound ns) run
    cases run
    exact ⟨_, rfl, extend derived⟩

theorem walkItems_sound
    (sound : ∀ {link r outcome r₁}, (e link).on r = some (outcome, r₁) →
      Extends load fuel (.embed link) r outcome r₁)
    (kind : ListKind) (items : List (List Node)) {r r₁ : Resolver σ}
    {outcome : Except Error (List (List Node) × References)}
    (run : (walkItems e items).on r = some (outcome, r₁)) :
    ∃ pair, outcome = .ok pair ∧ ∀ {nodes rest r₂},
      Resolves load Anyhow fuel r₁ nodes rest r₂ →
      Resolves load Anyhow fuel r (.list kind items :: nodes)
        (⟨[.list kind pair.1], pair.2⟩ ++ rest) r₂ := by
  match items with
  | [] =>
    cases run
    exact ⟨_, rfl, .noItems⟩
  | item :: items =>
    rw [walkItems] at run
    obtain ⟨first, r₂, derived, run⟩ := Action.of_on_bind_of_spec (walk_sound sound item) run
    obtain ⟨⟨items', references⟩, r₃, extend, run⟩ :=
      Action.of_on_bind_of_spec (walkItems_sound sound kind items) run
    cases run
    refine ⟨_, rfl, fun {nodes rest r₂} following => ?_⟩
    have whole := Resolves.item derived (extend following)
    have same : (⟨[.list kind (first.nodes :: items')], first.references ++ references⟩ ++ rest
        : Resolved) = ⟨.list kind (first.nodes :: items') :: rest.nodes,
          first.references ++ (references ++ rest.references)⟩ :=
      Resolved.ext rfl (References.append_assoc _ _ _)
    rw [same]
    exact whole

end

end Sound

theorem embed_sound (fuel : Nat) {link : Link} {r r₁ : Resolver σ}
    {outcome : Except Error Resolved}
    (run : (embed load fuel link).on r = some (outcome, r₁)) :
    Extends load fuel (.embed link) r outcome r₁ := by
  induction fuel generalizing link r outcome r₁ with
  | zero => cases run
  | succ fuel ih =>
    rw [embed] at run
    obtain ⟨t, r₂, sought, run⟩ := Action.of_on_bind_of_spec Seeks.of_on run
    cases t with
    | done first =>
      cases run
      exact ⟨_, rfl, .done sought⟩
    | content frame content =>
      change (splice (walk (embed load fuel)) frame content).on r₂ = _ at run
      rw [splice_on] at run
      obtain ⟨⟨_, r₃⟩, inside, same⟩ := Option.map_eq_some_iff.1 run
      cases same
      obtain ⟨inner, rfl, derived⟩ := walk_sound ih content inside
      exact ⟨_, rfl, .splice sought derived trivial⟩

/-- A run that has an outcome is a derivation, and so its outcome is no failure. -/
theorem Resolves.of_on {outcome : Except Error Resolved}
    (run : (walk (embed load fuel) nodes).on r = some (outcome, r')) :
    ∃ out, outcome = .ok out ∧ Resolves load Anyhow fuel r nodes out r' :=
  walk_sound (embed_sound fuel) nodes run

/-! ## Derivations are runs -/

theorem embed_on_done {link : Link} {first : Resolved} {r₁ : Resolver σ}
    (sought : Seeks load r link (.done first) r₁) :
    (embed load (fuel + 1) link).on r = some (.ok first, r₁) := by
  rw [embed, Action.on_bind_of_ok sought.on]
  rfl

theorem embed_on_content {link : Link} {frame : Frame} {content : List Node} {inner : Resolved}
    {r₁ r₂ : Resolver σ} (sought : Seeks load r link (.content frame content) r₁)
    (inside : (walk (embed load fuel) content).on (r₁.opened frame).entered =
      some (.ok inner, r₂)) :
    (embed load (fuel + 1) link).on r =
      some (.ok (moved frame.level r₁.ambientLevel inner), r₂.left.closed) := by
  rw [embed, Action.on_bind_of_ok sought.on]
  change (splice (walk (embed load fuel)) frame content).on r₁ = _
  rw [splice_on, inside]
  rfl

/-- A derivation is a run. -/
theorem Resolves.on (h : Resolves load P fuel r nodes out r') :
    (walk (embed load fuel) nodes).on r = some (.ok out, r') := by
  induction h with
  | nil => rfl
  | heading _ _ ihInner ihRest =>
    refine walk_cons_on ?_ ihRest
    rw [heading_on, ihInner]
    rfl
  | leaf isLeaf _ ih => exact walk_cons_on (leaf_on isLeaf _) ih
  | noItems _ ih => exact walk_cons_on (noItems_on _ _) ih
  | item _ _ ihItem ihRest => exact walk_item_on ihItem ihRest
  | done sought _ ih => exact walk_cons_on (embed_on_done sought) ih
  | splice sought _ _ _ ihInner ihRest =>
    exact walk_cons_on (embed_on_content sought ihInner) ihRest

/-- Runs from one state end alike. -/
theorem Resolves.unique {out' : Resolved} {r'' : Resolver σ}
    (h : Resolves load P fuel r nodes out r') (h' : Resolves load Q fuel r nodes out' r'') :
    out = out' ∧ r' = r'' := by
  have same := h.on.symm.trans h'.on
  cases same
  exact ⟨rfl, rfl⟩

/-! ## What runs keep -/

/-- What does not depend on the open headings and the depth, and is kept by every search, is kept by
every run. -/
theorem Resolves.keeps {I : Resolver σ → Prop}
    (anywhere : ∀ (r : Resolver σ) frames depth, I r → I { r with frames, depth })
    (searches : ∀ {r link t r'}, Seeks load r link t r' → I r → I r')
    (h : Resolves load P fuel r nodes out r') (holds : I r) : I r' := by
  induction h with
  | nil => exact holds
  | heading _ _ ihInner ihRest =>
    exact ihRest (anywhere _ _ _ (ihInner (anywhere _ _ _ holds)))
  | leaf _ _ ih => exact ih holds
  | noItems _ ih => exact ih holds
  | item _ _ ihItem ihRest => exact ihRest (ihItem holds)
  | done sought _ ih => exact ih (searches sought holds)
  | @splice _ _ frame _ _ _ _ _ r₁ r₂ _ sought _ _ _ ihInner ihRest =>
    have entered : I (r₁.opened frame).entered :=
      anywhere r₁ (frame :: r₁.frames) (r₁.depth + 1) (searches sought holds)
    have after : I r₂.left.closed :=
      anywhere r₂ r₂.frames.tail (r₂.depth - 1) (ihInner entered)
    exact ihRest after

/-- `load` leaves the resolver where it is. -/
def StaysAt (load : Document → Step σ Note) : Prop :=
  ∀ {d r outcome r'}, (load d).on r = some (outcome, r') → r'.place = r.place

theorem Seeks.place (stays : StaysAt load) {link : Link} {t : Target}
    (h : Seeks load r link t r') : r'.place = r.place := by
  cases h with
  | figure _ _ => rfl
  | noImage _ _ => rfl
  | tooDeep _ _ => rfl
  | missing _ _ _ => rfl
  | unloadable _ _ _ loaded =>
    have same := stays loaded
    exact same
  | noHeading _ _ _ loaded _ =>
    have same := stays loaded
    exact same
  | content _ _ _ loaded _ =>
    have same := stays loaded
    exact same

/-- A run ends where it began. -/
theorem Resolves.place (stays : StaysAt load) (h : Resolves load P fuel r nodes out r') :
    r'.place = r.place := by
  induction h with
  | nil => rfl
  | heading _ _ ihInner ihRest => exact ihRest.trans (place_closed ihInner)
  | leaf _ _ ih => exact ih
  | noItems _ ih => exact ih
  | item _ _ ihItem ihRest => exact ihRest.trans ihItem
  | done sought _ ih => exact ih.trans (sought.place stays)
  | splice sought _ _ _ ihInner ihRest =>
    exact ihRest.trans ((place_closed (place_left ihInner)).trans (sought.place stays))

theorem staysAt_load : StaysAt (Step.load : Document → Step σ Note) := by
  intro d r outcome r' run
  rcases load_cases run with ⟨_, _, _, rfl⟩ | ⟨_, _, _, _, rfl⟩ | ⟨_, _, _, _, rfl⟩
  · rfl
  · rfl
  · rfl

end Longform.Resolver
