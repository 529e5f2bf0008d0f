import Longform.Proofs.Resolves

/-!
# Runs under a limit end

A limit on the nesting of embeds makes every run end, in whatever way embeds
refer to each other and whatever the store does.

* `Seeks.exists`: a search has an end.
* `Resolves.exists_of_bounded`: with fuel for the embeds that the limit still
  allows, every forest is resolved.
* `unroll_on_limit` and `resolveEmbed_on_limit`: the resolver takes that much.
-/

namespace Longform.Resolver

variable {σ : Type} [Store σ] {load : Document → Step σ Note} {P : AtSplice σ} {fuel n : Nat}
  {r r' : Resolver σ} {link : Link} {nodes : List Node}

/-- `load` always has an outcome. -/
def Total (load : Document → Step σ Note) : Prop :=
  ∀ d r, ∃ outcome r', (load d).on r = some (outcome, r')

theorem total_load : Total (Step.load : Document → Step σ Note) := by
  intro d r
  rw [on_load]
  split
  · exact ⟨_, _, rfl⟩
  · split
    · exact ⟨_, _, rfl⟩
    · exact ⟨_, _, rfl⟩

theorem Seeks.exists (total : Total load) (r : Resolver σ) (link : Link) :
    ∃ t r', Seeks load r link t r' := by
  rcases isImage : isImageAddress link.address with _ | _
  · rcases reached : r.reachedLimit? with _ | limit
    · rcases found : Store.find link.address r.store with ⟨⟨_ | d, warnings⟩, store⟩
      · exact ⟨_, _, .missing isImage reached found⟩
      obtain ⟨outcome, r₁, loaded⟩ := total d (r.searched warnings store)
      rcases outcome with e | note
      · exact ⟨_, _, .unloadable isImage reached found loaded⟩
      rcases aim : target? link d note with _ | ⟨frame, content⟩
      · exact ⟨_, _, .noHeading isImage reached found loaded aim⟩
      · exact ⟨_, _, .content isImage reached found loaded aim⟩
    · exact ⟨_, _, .tooDeep isImage reached⟩
  · rcases found : Store.findImage link.address r.store with ⟨⟨_ | file, warnings⟩, store⟩
    · exact ⟨_, _, .noImage isImage found⟩
    · exact ⟨_, _, .figure isImage found⟩

/-- Blocks are put in only where embeds may be nested once more. -/
theorem Seeks.free_of_content {frame : Frame} {content : List Node}
    (h : Seeks load r link (.content frame content) r') : r.reachedLimit? = none := by
  cases h with
  | content _ free _ _ _ => exact free

omit [Store σ] in
theorem depth_lt_of_free (limited : r.limit = some n) (free : r.reachedLimit? = none) :
    r.depth < n := by
  rw [reachedLimit?, limited] at free
  simpa using free

/-- The fuel lasts for the embeds that the limit `n` still allows. -/
structure Bounded (n fuel : Nat) (r : Resolver σ) : Prop where
  limit : r.limit = some n
  positive : 1 ≤ fuel
  enough : n < r.depth + fuel

omit [Store σ] in
theorem Bounded.of_place (h : Bounded n fuel r) (same : r'.place = r.place) :
    Bounded n fuel r' := by
  obtain ⟨-, depth, limit⟩ := place_eq_iff.1 same
  refine ⟨limit.trans h.limit, h.positive, ?_⟩
  rw [depth]
  exact h.enough

omit [Store σ] in
theorem Bounded.entered (h : Bounded n (fuel + 1) r) (free : r.reachedLimit? = none)
    (frame : Frame) : Bounded n fuel (r.opened frame).entered := by
  have enough := h.enough
  have below : r.depth < n := depth_lt_of_free h.limit free
  refine ⟨h.limit, ?_, ?_⟩
  · omega
  · change n < r.depth + 1 + fuel
    omega

/-- What a list resolves to begins with a list of the same kind. -/
theorem Resolves.of_list {kind : ListKind} {items : List (List Node)} {out : Resolved}
    (h : Resolves load P fuel r (.list kind items :: nodes) out r') :
    ∃ items' nodes' references, out = ⟨.list kind items' :: nodes', references⟩ := by
  cases h with
  | leaf isLeaf _ => exact isLeaf.elim
  | noItems _ => exact ⟨_, _, _, rfl⟩
  | item _ _ => exact ⟨_, _, _, rfl⟩

/-- Under a limit every forest is resolved. -/
theorem Resolves.exists_of_bounded (total : Total load) (stays : StaysAt load)
    (bounded : Bounded n fuel r) (nodes : List Node) :
    ∃ out r', Resolves load Anyhow fuel r nodes out r' := by
  induction fuel generalizing r nodes with
  | zero =>
    have positive := bounded.positive
    omega
  | succ fuel deeper =>
    induction nodes using Node.forestInduction generalizing r with
    | nil => exact ⟨_, _, .nil⟩
    | heading level title children nodes ihChildren ihNodes =>
      have inHeading : Bounded n (fuel + 1) (r.opened ⟨Inline.plainText title, level⟩) :=
        ⟨bounded.limit, bounded.positive, bounded.enough⟩
      obtain ⟨inner, r₁, inside⟩ := ihChildren inHeading
      have back := place_closed (inside.place stays)
      obtain ⟨rest, r₂, following⟩ := ihNodes (bounded.of_place back)
      exact ⟨_, _, .heading inside following⟩
    | leaf n nodes isLeaf ih =>
      obtain ⟨rest, r₁, following⟩ := ih bounded
      exact ⟨_, _, .leaf isLeaf following⟩
    | noItems kind nodes ih =>
      obtain ⟨rest, r₁, following⟩ := ih bounded
      exact ⟨_, _, .noItems following⟩
    | item kind item items nodes ihItem ih =>
      obtain ⟨first, r₁, inside⟩ := ihItem bounded
      obtain ⟨rest, r₂, following⟩ := ih (bounded.of_place (inside.place stays))
      obtain ⟨items', nodes', references, rfl⟩ := following.of_list
      exact ⟨_, _, .item inside following⟩
    | embed link nodes ih =>
      obtain ⟨t, r₁, sought⟩ := Seeks.exists total r link
      have here := sought.place stays
      cases t with
      | done first =>
        obtain ⟨rest, r₂, following⟩ := ih (bounded.of_place here)
        exact ⟨_, _, .done sought following⟩
      | content frame content =>
        -- The limit was not reached before the search, so there is fuel for one more embed.
        have free : r₁.reachedLimit? = none := by
          rw [reachedLimit?_of_place here]
          exact sought.free_of_content
        have inEmbed := (bounded.of_place here).entered free frame
        obtain ⟨inner, r₂, inside⟩ := deeper inEmbed content
        have back := (place_closed (place_left (inside.place stays))).trans here
        obtain ⟨rest, r₃, following⟩ := ih (bounded.of_place back)
        exact ⟨_, _, .splice sought inside trivial following⟩

omit [Store σ] in
/-- A resolver takes as much fuel as its limit needs. -/
theorem bounded_fuel (h : r.limit = some n) : Bounded n r.fuel r := by
  have fuel : r.fuel = n - r.depth + 1 := by
    rw [Resolver.fuel, h]
    rfl
  refine ⟨h, ?_, ?_⟩
  · omega
  · omega

/-- A run under a limit succeeds. -/
theorem unroll_on_limit (h : r.limit = some n) (nodes : List Node) :
    ∃ out r', (unroll nodes).on r = some (.ok out, r') := by
  obtain ⟨out, r', derived⟩ :=
    Resolves.exists_of_bounded total_load staysAt_load (bounded_fuel h) nodes
  exact ⟨out, r', derived.on⟩

/-- Resolving one embed under a limit succeeds. -/
theorem resolveEmbed_on_limit (h : r.limit = some n) (link : Link) :
    ∃ out r', (resolveEmbed link).on r = some (.ok out, r') := by
  obtain ⟨_, _, derived⟩ :=
    Resolves.exists_of_bounded total_load staysAt_load (bounded_fuel h) [.embed link]
  obtain ⟨first, r₁, _, head, -, -⟩ := of_walk_cons_on derived.on
  exact ⟨first, r₁, head⟩

end Longform.Resolver
