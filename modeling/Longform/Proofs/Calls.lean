import Mathlib.Logic.Relation
import Longform.Proofs.Fuel
import Longform.Proofs.Termination
import Longform.Store.Memory

/-!
# Calls under a limit

Forests, the items of lists and embeds are resolved by functions that call each
other and themselves. `Calls load (r, c) (q, d)` says that the call `c`, made in
the state `r`, makes the call `d`, and in which state `q`.

* `Calls.smaller`: a call is on a part of what its caller works on, or it is
  nested in one more embed.
* `Calls.within`: under a limit it is never nested more deeply than the limit says.
* `Calls.acc`: so under a limit the calls are well-founded, in whatever way the
  notes of the store embed each other.
* `Call.ends_of_calls`: a call ends when those that it makes do. No other call is
  left out of `Calls`, then.
* `limit_bounds_calls` puts these together with what is done at the limit, and
  with what is restored when a call ends.
-/

namespace Longform.Resolver

open Node (IsLeaf)
open Relation (ReflTransGen)

/-- A call of one of the functions that resolve blocks. -/
inductive Call where
  | forest (nodes : List Node)
  | items (entries : List (List Node))
  | embed (link : Link)

/-- The forest that comes to the same as a call. -/
def Call.blocks : Call → List Node
  | .forest nodes => nodes
  | .items entries => [.list .bulleted entries]
  | .embed link => [.embed link]

variable {σ : Type} [Store σ] {load : Document → Step σ Note} {fuel n : Nat} {r r' q : Resolver σ}
  {c d : Call}

/-- The state after a call, when it ends with the given fuel. -/
def Call.after? (load : Document → Step σ Note) (fuel : Nat) (r : Resolver σ) :
    Call → Option (Resolver σ)
  | .forest nodes => ((walk (Resolver.embed load fuel) nodes).on r).map Prod.snd
  | .items entries => ((walkItems (Resolver.embed load fuel) entries).on r).map Prod.snd
  | .embed link => ((Resolver.embed load fuel link).on r).map Prod.snd

/-- Which calls a call makes, and in which states. What is left of a forest or of a list is called
after its first block or item. -/
inductive Calls (load : Document → Step σ Note) : Resolver σ × Call → Resolver σ × Call → Prop
  | children {level : Nat} {title : List Inline} {children nodes : List Node} {r : Resolver σ} :
    Calls load (r, .forest (.heading level title children :: nodes))
      (r.opened ⟨Inline.plainText title, level⟩, .forest children)
  | list {kind : ListKind} {items : List (List Node)} {nodes : List Node} {r : Resolver σ} :
    Calls load (r, .forest (.list kind items :: nodes)) (r, .items items)
  | embed {link : Link} {nodes : List Node} {r : Resolver σ} :
    Calls load (r, .forest (.embed link :: nodes)) (r, .embed link)
  | rest {n : Node} {nodes : List Node} {fuel : Nat} {r r₁ : Resolver σ} :
    Call.after? load fuel r (.forest [n]) = some r₁ →
    Calls load (r, .forest (n :: nodes)) (r₁, .forest nodes)
  | item {item : List Node} {items : List (List Node)} {r : Resolver σ} :
    Calls load (r, .items (item :: items)) (r, .forest item)
  | items {item : List Node} {items : List (List Node)} {fuel : Nat} {r r₁ : Resolver σ} :
    Call.after? load fuel r (.forest item) = some r₁ →
    Calls load (r, .items (item :: items)) (r₁, .items items)
  | content {link : Link} {frame : Frame} {content : List Node} {r r₁ : Resolver σ} :
    Seeks load r link (.content frame content) r₁ →
    Calls load (r, .embed link) ((r₁.opened frame).entered, .forest content)

/-! ## Places of calls -/

/-- A call that ends is a run on the forest that comes to the same. -/
theorem Call.resolves_of_after? (h : c.after? load fuel r = some r') :
    ∃ out, Resolves load Anyhow fuel r c.blocks out r' := by
  cases c with
  | forest nodes =>
    obtain ⟨⟨_, _⟩, run, rfl⟩ := Option.map_eq_some_iff.1 h
    obtain ⟨out, -, derived⟩ := Resolves.of_on run
    exact ⟨out, derived⟩
  | items items =>
    obtain ⟨⟨_, _⟩, run, rfl⟩ := Option.map_eq_some_iff.1 h
    obtain ⟨_, -, extend⟩ := walkItems_sound (embed_sound fuel) .bulleted items run
    exact ⟨_, extend .nil⟩
  | embed link =>
    obtain ⟨⟨_, _⟩, run, rfl⟩ := Option.map_eq_some_iff.1 h
    obtain ⟨_, -, extend⟩ := embed_sound fuel run
    exact ⟨_, extend .nil⟩

/-- A call leaves the resolver where it was. -/
theorem Call.place_of_after? (stays : StaysAt load) (h : c.after? load fuel r = some r') :
    r'.place = r.place := by
  obtain ⟨_, derived⟩ := Call.resolves_of_after? h
  exact derived.place stays

theorem Call.depth_of_after? (stays : StaysAt load) (h : c.after? load fuel r = some r') :
    r'.depth = r.depth :=
  (place_eq_iff.1 (Call.place_of_after? stays h)).2.1

/-- A call is as deeply nested as its caller and on a part of what that works on, or it is nested in
one more embed. -/
theorem Calls.smaller (stays : StaysAt load) (h : Calls load (r, c) (q, d)) :
    q.depth = r.depth ∧ sizeOf d < sizeOf c ∨ q.depth = r.depth + 1 := by
  cases h with
  | children =>
    refine .inl ⟨rfl, ?_⟩
    simp only [Call.forest.sizeOf_spec, List.cons.sizeOf_spec, Node.heading.sizeOf_spec]
    omega
  | list =>
    refine .inl ⟨rfl, ?_⟩
    simp only [Call.forest.sizeOf_spec, Call.items.sizeOf_spec, List.cons.sizeOf_spec,
      Node.list.sizeOf_spec]
    omega
  | embed =>
    refine .inl ⟨rfl, ?_⟩
    simp only [Call.forest.sizeOf_spec, Call.embed.sizeOf_spec, List.cons.sizeOf_spec,
      Node.embed.sizeOf_spec]
    omega
  | rest ended =>
    refine .inl ⟨Call.depth_of_after? stays ended, ?_⟩
    simp only [Call.forest.sizeOf_spec, List.cons.sizeOf_spec]
    omega
  | item =>
    refine .inl ⟨rfl, ?_⟩
    simp only [Call.forest.sizeOf_spec, Call.items.sizeOf_spec, List.cons.sizeOf_spec]
    omega
  | items ended =>
    refine .inl ⟨Call.depth_of_after? stays ended, ?_⟩
    simp only [Call.items.sizeOf_spec, List.cons.sizeOf_spec]
    omega
  | content sought =>
    have here := place_eq_iff.1 (sought.place stays)
    exact .inr (congrArg (· + 1) here.2.1)

/-! ## Calls under a limit -/

/-- The limit is `n`, and no more embeds are open than it allows. -/
structure Within (n : Nat) (r : Resolver σ) : Prop where
  limit : r.limit = some n
  depth : r.depth ≤ n

omit [Store σ] in
theorem Within.of_place (h : Within n r) (same : r'.place = r.place) : Within n r' := by
  obtain ⟨-, depth, limit⟩ := place_eq_iff.1 same
  exact ⟨limit.trans h.limit, Nat.le_trans (Nat.le_of_eq depth) h.depth⟩

/-- Blocks are put in only where embeds are nested less deeply than the limit allows. -/
theorem Seeks.depth_lt {link : Link} {frame : Frame} {content : List Node}
    (sought : Seeks load r link (.content frame content) r') (limited : r.limit = some n) :
    r.depth < n :=
  depth_lt_of_free limited sought.free_of_content

/-- Under a limit a call makes its calls under the same limit, and no more deeply nested than it
says. -/
theorem Calls.within (stays : StaysAt load) (h : Calls load (r, c) (q, d)) (within : Within n r) :
    Within n q := by
  cases h with
  | children => exact ⟨within.limit, within.depth⟩
  | list => exact within
  | embed => exact within
  | rest ended => exact within.of_place (Call.place_of_after? stays ended)
  | item => exact within
  | items ended => exact within.of_place (Call.place_of_after? stays ended)
  | content sought =>
    have lt := sought.depth_lt within.limit
    obtain ⟨-, depth, limit⟩ := place_eq_iff.1 (sought.place stays)
    exact ⟨limit.trans within.limit, Nat.le_trans (Nat.le_of_eq (congrArg (· + 1) depth)) lt⟩

/-- All the calls that come of a call under a limit are under it too. -/
theorem within_of_reach (stays : StaysAt load) (reach : ReflTransGen (Calls load) (r, c) (q, d))
    (within : Within n r) : Within n q := by
  generalize target : (q, d) = call at reach
  induction reach generalizing q d with
  | refl =>
    cases target
    exact within
  | @tail middle _ _ step ih =>
    subst target
    have before : Within n middle.1 := ih rfl
    exact step.within stays before

/-- Under a limit no calls go on being made forever: embeds can be nested only so often more, and
between two embeds the calls are on ever smaller parts. -/
theorem Calls.acc (stays : StaysAt load) {r : Resolver σ} (within : Within n r) (c : Call) :
    Acc (fun inner outer => Calls load outer inner) (r, c) := by
  refine Acc.intro _ ?_
  rintro ⟨q, d⟩ call
  have inside : Within n q := call.within stays within
  have smaller := call.smaller stays
  exact Calls.acc stays inside d
termination_by (n - r.depth, sizeOf c)
decreasing_by
  -- One more embed leaves fewer to come; else the call is on less.
  have depth := inside.depth
  rcases smaller with ⟨same, less⟩ | deeper
  · rw [same]
    exact Prod.Lex.right _ less
  · exact Prod.Lex.left _ _ (by omega)

/-! ## Calls that end -/

/-- A call ends when it is given enough fuel. -/
def Call.Ends (load : Document → Step σ Note) (r : Resolver σ) (c : Call) : Prop :=
  ∃ fuel r', c.after? load fuel r = some r'

theorem Call.ends_forest {nodes : List Node} :
    Ends load r (.forest nodes) ↔
      ∃ fuel out r', (walk (Resolver.embed load fuel) nodes).on r = some (.ok out, r') := by
  constructor
  · rintro ⟨fuel, r', ended⟩
    obtain ⟨⟨_, _⟩, run, rfl⟩ := Option.map_eq_some_iff.1 ended
    obtain ⟨out, rfl, -⟩ := Resolves.of_on run
    exact ⟨fuel, out, _, run⟩
  · rintro ⟨fuel, out, r', run⟩
    exact ⟨fuel, r', Option.map_eq_some_iff.2 ⟨_, run, rfl⟩⟩

theorem Call.ends_items {items : List (List Node)} :
    Ends load r (.items items) ↔
      ∃ fuel pair r', (walkItems (Resolver.embed load fuel) items).on r = some (.ok pair, r') := by
  constructor
  · rintro ⟨fuel, r', ended⟩
    obtain ⟨⟨_, _⟩, run, rfl⟩ := Option.map_eq_some_iff.1 ended
    obtain ⟨pair, rfl, -⟩ := walkItems_sound (embed_sound fuel) .bulleted items run
    exact ⟨fuel, pair, _, run⟩
  · rintro ⟨fuel, pair, r', run⟩
    exact ⟨fuel, r', Option.map_eq_some_iff.2 ⟨_, run, rfl⟩⟩

theorem Call.ends_embed {link : Link} :
    Ends load r (.embed link) ↔
      ∃ fuel out r', (Resolver.embed load fuel link).on r = some (.ok out, r') := by
  constructor
  · rintro ⟨fuel, r', ended⟩
    obtain ⟨⟨_, _⟩, run, rfl⟩ := Option.map_eq_some_iff.1 ended
    obtain ⟨out, rfl, -⟩ := embed_sound fuel run
    exact ⟨fuel, out, _, run⟩
  · rintro ⟨fuel, out, r', run⟩
    exact ⟨fuel, r', Option.map_eq_some_iff.2 ⟨_, run, rfl⟩⟩

/-- The first block of a forest is resolved when the calls on its parts end. -/
theorem walkOne_of_calls {n : Node} {nodes : List Node}
    (ends : ∀ {q d}, Calls load (r, .forest (n :: nodes)) (q, d) → Call.Ends load q d) :
    ∃ fuel first r₁, (walkOne (embed load fuel) n).on r = some (.ok first, r₁) := by
  have ofLeaf : IsLeaf n → ∃ fuel first r₁,
      (walkOne (embed load fuel) n).on r = some (.ok first, r₁) := by
    intro isLeaf
    exact ⟨0, _, _, leaf_on isLeaf r⟩
  cases n with
  | heading level title children =>
    obtain ⟨fuel, inner, r₁, inside⟩ := Call.ends_forest.1 (ends .children)
    refine ⟨fuel, underHeading level title inner, r₁.closed, ?_⟩
    rw [heading_on, inside]
    rfl
  | list kind items =>
    obtain ⟨fuel, ⟨items', references⟩, r₁, inside⟩ := Call.ends_items.1 (ends .list)
    refine ⟨fuel, ⟨[.list kind items'], references⟩, r₁, ?_⟩
    rw [list_on, inside]
    rfl
  | embed link => exact Call.ends_embed.1 (ends .embed)
  | paragraph content => exact ofLeaf trivial
  | figure file caption => exact ofLeaf trivial
  | code language content => exact ofLeaf trivial
  | quote lines => exact ofLeaf trivial
  | displayMath text => exact ofLeaf trivial

/-- A call ends when the calls that it makes do. -/
theorem Call.ends_of_calls (total : Total load)
    (ends : ∀ {q d}, Calls load (r, c) (q, d) → Ends load q d) : Ends load r c := by
  match c with
  | .forest [] => exact ⟨0, r, rfl⟩
  | .forest (n :: nodes) =>
    obtain ⟨fuel, first, r₁, head⟩ := walkOne_of_calls ends
    have single : Call.after? load fuel r (.forest [n]) = some r₁ := by
      rw [Call.after?, walk_cons_on head rfl]
      rfl
    obtain ⟨fuel', rest, r₂, tail⟩ := ends_forest.1 (ends (.rest single))
    -- The block and what is left end with different fuel, and both with the larger one.
    have head' := walkOne_below (embed_below (Nat.le_max_left fuel fuel')) n r _ head
    have tail' := walk_on_of_le (Nat.le_max_right fuel fuel') tail
    exact ends_forest.2 ⟨_, _, _, walk_cons_on head' tail'⟩
  | .items [] => exact ⟨0, r, rfl⟩
  | .items (item :: entries) =>
    obtain ⟨fuel, first, r₁, head⟩ := ends_forest.1 (ends .item)
    have single : Call.after? load fuel r (.forest item) = some r₁ := by
      rw [Call.after?, head]
      rfl
    obtain ⟨fuel', rest, r₂, tail⟩ := ends_items.1 (ends (.items single))
    have head' := walk_on_of_le (Nat.le_max_left fuel fuel') head
    have tail' := walkItems_below (embed_below (Nat.le_max_right fuel fuel')) entries r₁ _ tail
    exact ends_items.2 ⟨_, _, _, walkItems_cons_on head' tail'⟩
  | .embed link =>
    obtain ⟨t, r₁, sought⟩ := Seeks.exists total r link
    cases t with
    | done resolved => exact ends_embed.2 ⟨1, resolved, r₁, embed_on_done sought⟩
    | content frame content =>
      obtain ⟨fuel, inner, r₂, inside⟩ := ends_forest.1 (ends (.content sought))
      exact ends_embed.2 ⟨_, _, _, embed_on_content sought inside⟩

theorem Call.ends_of_acc (total : Total load)
    (acc : Acc (fun inner outer => Calls load outer inner) (r, c)) : Ends load r c := by
  generalize call : (r, c) = whole at acc
  induction acc generalizing r c with
  | intro _ _ ih =>
    subst call
    exact ends_of_calls total fun made => ih _ made rfl

/-! ## At the limit -/

/-- An embed of a note that stands at the limit is a warning and nothing else: neither the store nor
the notes that are known are asked for anything. -/
theorem embed_on_limit {link : Link} (limited : r.limit = some n) (atLimit : r.depth = n)
    (noImage : isImageAddress link.address = false) :
    (embed load (fuel + 1) link).on r =
      some (.ok .empty, r.warned (depthWarning n link.address)) := by
  have reached : r.reachedLimit? = some n := by
    rw [reachedLimit?, limited, Option.filter_some,
      if_pos (decide_eq_true (Nat.le_of_eq atLimit.symm))]
  exact embed_on_done (.tooDeep noImage reached)

/-- A resolver under the limit `n`, no more deeply nested than it says, does not go on making calls
forever, whatever the store holds and whatever notes are known. Every call that comes of one of its
calls is nested at most as deeply as the limit says, and it ends, with the headings open that were
open and nested as deeply as it was. An embed of a note that is met at the limit is one warning and
nothing else. -/
theorem limit_bounds_calls (limited : r.limit = some n) (within : r.depth ≤ n) :
    (∀ c, Acc (fun inner outer => Calls Step.load outer inner) (r, c)) ∧
    (∀ c q d, ReflTransGen (Calls Step.load) (r, c) (q, d) →
      q.limit = some n ∧ q.depth ≤ n ∧ d.Ends Step.load q ∧
      (∀ fuel q', d.after? Step.load fuel q = some q' →
        q'.frames = q.frames ∧ q'.depth = q.depth) ∧
      (q.depth = n → ∀ link, d = .embed link → isImageAddress link.address = false →
        ∀ load fuel, (embed load (fuel + 1) link).on q =
          some (.ok .empty, q.warned (depthWarning n link.address)))) ∧
    (∀ nodes, ∃ out r', (unroll nodes).on r = some (.ok out, r') ∧
      r'.frames = r.frames ∧ r'.depth = r.depth) ∧
    (∀ link, ∃ out r', (resolveEmbed link).on r = some (.ok out, r') ∧
      r'.frames = r.frames ∧ r'.depth = r.depth) := by
  have here : Within n r := ⟨limited, within⟩
  have restored : ∀ {q q' : Resolver σ} {d : Call} {fuel}, d.after? Step.load fuel q = some q' →
      q'.frames = q.frames ∧ q'.depth = q.depth := by
    intro q q' d fuel ended
    obtain ⟨frames, depth, -⟩ := place_eq_iff.1 (Call.place_of_after? staysAt_load ended)
    exact ⟨frames, depth⟩
  refine ⟨?_, ?_, ?_, ?_⟩
  · exact Calls.acc staysAt_load here
  · intro c q d reach
    have there : Within n q := within_of_reach staysAt_load reach here
    refine ⟨there.limit, there.depth, ?_, fun fuel q' => restored, ?_⟩
    · exact Call.ends_of_acc total_load (Calls.acc staysAt_load there d)
    · intro atLimit link _ noImage load fuel
      exact embed_on_limit there.limit atLimit noImage
  · intro nodes
    obtain ⟨out, r', run⟩ := unroll_on_limit limited nodes
    have ended : Call.after? Step.load r.fuel r (.forest nodes) = some r' :=
      Option.map_eq_some_iff.2 ⟨_, run, rfl⟩
    exact ⟨out, r', run, restored ended⟩
  · intro link
    obtain ⟨out, r', run⟩ := resolveEmbed_on_limit limited link
    have ended : Call.after? Step.load r.fuel r (.embed link) = some r' :=
      Option.map_eq_some_iff.2 ⟨_, run, rfl⟩
    exact ⟨out, r', run, restored ended⟩

/-- A note that embeds itself. -/
def selfEmbedding : Memory := ⟨[(⟨"loop.md"⟩, "# Again\n![[loop]]\n")], [], []⟩

/-- Three times the note is put in; the fourth time there is the warning. -/
theorem limit_bounds_calls_selfEmbedding :
    ∃ out r', (unroll [.embed ⟨"loop", none, none⟩]).on
        (initial selfEmbedding .empty (some 3)) = some (.ok out, r') ∧
      r'.frames = [] ∧ r'.depth = 0 ∧ r'.warnings = [depthWarning 3 "loop"] := by
  obtain ⟨-, -, forests, -⟩ := limit_bounds_calls (r := initial selfEmbedding .empty (some 3)) rfl
    (Nat.zero_le 3)
  obtain ⟨out, r', run, frames, depth⟩ := forests [.embed ⟨"loop", none, none⟩]
  have warns : ((unroll [.embed ⟨"loop", none, none⟩]).on
      (initial selfEmbedding .empty (some 3))).map (·.2.warnings) =
        some [depthWarning 3 "loop"] := by decide +kernel
  rw [run, Option.map_some, Option.some.injEq] at warns
  exact ⟨out, r', run, frames, depth, warns⟩

end Longform.Resolver
