import Longform.Proofs.Fuel
import Longform.Proofs.Termination
import Longform.Store.Memory

/-!
# Limits that are not reached

The limit on the nesting of embeds is looked at where a note is about to be
searched, and where it is reached there is a warning. So a run without that
warning never found the limit reached, and goes on in the same way under a limit
that allows more, or under none.

* `Resolves.warnings_prefix`: a run only adds warnings; `emitted` are those.
* `Seeks.limitedBy` and `Resolves.limitedBy`: a search and a run without the
  warning are the same under a limit that allows as much.
* `unreached_limit_invisible` says what this means for `unroll`.
-/

namespace Longform.Resolver

variable {σ : Type} {r r₁ r' : Resolver σ} {n : Nat} {limit : Option Nat}

/-! ## Warnings of a run -/

/-- The warnings that `r'` has beyond those of `r`. -/
def emitted (r r' : Resolver σ) : List String := r'.warnings.drop r.warnings.length

/-- No warning that `r'` has beyond those of `r` says that the limit `n` was reached. -/
def Unreached (n : Nat) (r r' : Resolver σ) : Prop :=
  ∀ address, depthWarning n address ∉ emitted r r'

/-- A warning that begins in another way is no warning of the limit. -/
theorem depthWarning_ne {address other : String} (h : other.toList.head? ≠ some 'E') :
    depthWarning n address ≠ other := by
  intro same
  have first : "Embed depth limit ".toList.head? = some 'E' := by decide +kernel
  have whole : depthWarning n address =
      "Embed depth limit " ++ (toString n ++ (" exceeded while resolving " ++ address)) := by
    delta depthWarning
    simp only [String.append_assoc]
  apply h
  rw [← same, whole, String.toList_append, List.head?_append, first, Option.some_or]

theorem emitted_of_append {warnings : List String} (h : r'.warnings = r.warnings ++ warnings) :
    emitted r r' = warnings := by
  rw [emitted, h, List.drop_left]

theorem Unreached.split (h : Unreached n r r') (first : r.warnings <+: r₁.warnings)
    (second : r₁.warnings <+: r'.warnings) : Unreached n r r₁ ∧ Unreached n r₁ r' := by
  obtain ⟨before, eq⟩ := first
  obtain ⟨after, eq'⟩ := second
  have whole : emitted r r' = before ++ after := by
    apply emitted_of_append
    rw [← eq', ← eq, List.append_assoc]
  simp only [Unreached, whole, List.mem_append, not_or, forall_and] at h
  rw [Unreached, emitted_of_append eq.symm, Unreached, emitted_of_append eq'.symm]
  exact h

/-- The resolver under the given limit. -/
def limitedBy (r : Resolver σ) (limit : Option Nat) : Resolver σ := { r with limit }

theorem limit_of_place (h : r'.place = r.place) (limited : r.limit = some n) :
    r'.limit = some n :=
  (place_eq_iff.1 h).2.2.trans limited

variable [Store σ] {P : AtSplice σ} {fuel : Nat} {link : Link} {t : Target} {nodes : List Node}
  {out : Resolved}

theorem warnings_of_load {d : Document} {outcome : Except Error Note}
    (run : (Step.load d).on r = some (outcome, r')) : r'.warnings = r.warnings := by
  rcases load_cases run with ⟨_, _, _, rfl⟩ | ⟨_, _, _, _, rfl⟩ | ⟨_, _, _, _, rfl⟩
  · rfl
  · rfl
  · rfl

theorem Seeks.warnings_prefix (h : Seeks Step.load r link t r') : r.warnings <+: r'.warnings := by
  have loading : ∀ {d warnings store outcome r₁},
      (Step.load d).on (r.searched warnings store) = some (outcome, r₁) →
        r.warnings <+: r₁.warnings := by
    intro d warnings store outcome r₁ loaded
    rw [warnings_of_load loaded]
    exact List.prefix_append _ _
  cases h with
  | figure _ _ => exact List.prefix_append _ _
  | noImage _ _ => exact List.prefix_append _ _
  | tooDeep _ _ => exact List.prefix_append _ _
  | missing _ _ _ => exact List.prefix_append _ _
  | unloadable _ _ _ loaded => exact (loading loaded).trans (List.prefix_append _ _)
  | noHeading _ _ _ loaded _ => exact (loading loaded).trans (List.prefix_append _ _)
  | content _ _ _ loaded _ => exact loading loaded

/-- A run keeps the warnings that there were and adds others after them. -/
theorem Resolves.warnings_prefix (h : Resolves Step.load P fuel r nodes out r') :
    r.warnings <+: r'.warnings := by
  have adds : ∀ {q q' : Resolver σ} {link t}, Seeks Step.load q link t q' →
      r.warnings <+: q.warnings → r.warnings <+: q'.warnings := by
    intro q q' link t sought added
    exact added.trans sought.warnings_prefix
  exact h.keeps (I := fun q => r.warnings <+: q.warnings) (fun _ _ _ added => added) adds
    List.prefix_rfl

/-! ## Other limits -/

/-- How a note is come by does not depend on the limit. -/
theorem load_on_limitedBy (d : Document) (r : Resolver σ) (limit : Option Nat) :
    (Step.load d).on (r.limitedBy limit) =
      ((Step.load d).on r).map fun (outcome, r') => (outcome, r'.limitedBy limit) :=
  load_on_change (·.limitedBy limit) (fun _ => rfl) (fun _ => rfl) (fun _ _ => rfl)
    (fun _ _ _ => rfl) d r

/-- The limit allows embeds to be nested as deeply as the limit `n` does. -/
def Allows (limit : Option Nat) (n : Nat) : Prop := ∀ m, limit = some m → n ≤ m

omit [Store σ] in
theorem reachedLimit?_limitedBy (limited : r.limit = some n) (free : r.reachedLimit? = none)
    (allows : Allows limit n) : (r.limitedBy limit).reachedLimit? = none := by
  have below : r.depth < n := depth_lt_of_free limited free
  rw [reachedLimit?]
  cases limit with
  | none => rfl
  | some m =>
    have le := allows m rfl
    rw [Option.filter_eq_none_iff]
    intro reached same atLimit
    cases same
    have within : m ≤ r.depth := of_decide_eq_true atLimit
    omega

theorem loaded_limitedBy {d : Document} {warnings : List String} {store : σ}
    {outcome : Except Error Note}
    (loaded : (Step.load d).on (r.searched warnings store) = some (outcome, r'))
    (limit : Option Nat) :
    (Step.load d).on ((r.limitedBy limit).searched warnings store) =
      some (outcome, r'.limitedBy limit) := by
  change (Step.load d).on ((r.searched warnings store).limitedBy limit) = _
  rw [load_on_limitedBy, loaded]
  rfl

/-- A search that does not warn of the limit is the same under a limit that allows as much. -/
theorem Seeks.limitedBy (h : Seeks Step.load r link t r') (limited : r.limit = some n)
    (unreached : Unreached n r r') (allows : Allows limit n) :
    Seeks Step.load (r.limitedBy limit) link t (r'.limitedBy limit) := by
  cases h with
  | figure isImage found => exact .figure isImage found
  | noImage isImage found => exact .noImage isImage found
  | @tooDeep reached noImage atLimit =>
    -- The warning is there: the limit that was reached is `n`.
    have same : reached = n := by
      rw [reachedLimit?, limited] at atLimit
      exact (Option.some.inj (Option.eq_some_of_filter_eq_some atLimit)).symm
    rw [Unreached, emitted_of_append rfl, same] at unreached
    exact (unreached link.address (List.mem_singleton_self _)).elim
  | missing noImage free found =>
    exact .missing noImage (reachedLimit?_limitedBy limited free allows) found
  | unloadable noImage free found loaded =>
    exact .unloadable noImage (reachedLimit?_limitedBy limited free allows) found
      (loaded_limitedBy loaded limit)
  | noHeading noImage free found loaded aim =>
    exact .noHeading noImage (reachedLimit?_limitedBy limited free allows) found
      (loaded_limitedBy loaded limit) aim
  | content noImage free found loaded aim =>
    exact .content noImage (reachedLimit?_limitedBy limited free allows) found
      (loaded_limitedBy loaded limit) aim

/-- A run that does not warn of the limit is the same under a limit that allows as much. -/
theorem Resolves.limitedBy (h : Resolves Step.load P fuel r nodes out r')
    (limited : r.limit = some n) (unreached : Unreached n r r') (allows : Allows limit n) :
    Resolves Step.load Anyhow fuel (r.limitedBy limit) nodes out (r'.limitedBy limit) := by
  induction h with
  | nil => exact .nil
  | heading inside following ihInner ihRest =>
    obtain ⟨before, after⟩ := unreached.split inside.warnings_prefix following.warnings_prefix
    have back := place_closed (inside.place staysAt_load)
    exact .heading (ihInner limited before) (ihRest (limit_of_place back limited) after)
  | leaf isLeaf _ ih => exact .leaf isLeaf (ih limited unreached)
  | noItems _ ih => exact .noItems (ih limited unreached)
  | item inside following ihItem ihRest =>
    obtain ⟨before, after⟩ := unreached.split inside.warnings_prefix following.warnings_prefix
    have here := inside.place staysAt_load
    exact .item (ihItem limited before) (ihRest (limit_of_place here limited) after)
  | done sought following ih =>
    obtain ⟨before, after⟩ := unreached.split sought.warnings_prefix following.warnings_prefix
    have here := sought.place staysAt_load
    exact .done (sought.limitedBy limited before allows) (ih (limit_of_place here limited) after)
  | @splice _ _ frame _ _ _ _ _ r₁ r₂ _ sought inside _ following ihInner ihRest =>
    obtain ⟨before, later⟩ := unreached.split sought.warnings_prefix
      (inside.warnings_prefix.trans following.warnings_prefix)
    obtain ⟨within, after⟩ := later.split inside.warnings_prefix following.warnings_prefix
    have here := limit_of_place (sought.place staysAt_load) limited
    have back := place_closed (place_left (inside.place staysAt_load))
    have sought' := sought.limitedBy limited before allows
    have inside' : Resolves Step.load Anyhow _ ((r₁.limitedBy limit).opened frame).entered _ _
      (r₂.limitedBy limit) := ihInner here within
    have ambient : (r₁.limitedBy limit).ambientLevel = r₁.ambientLevel := rfl
    rw [← ambient]
    exact .splice sought' inside' trivial (ihRest (limit_of_place back here) after)

theorem unroll_on (nodes : List Node) (r : Resolver σ) :
    (unroll nodes).on r = (walk (embed Step.load r.fuel) nodes).on r := rfl

omit [Store σ] in
theorem fuel_of_limit (h : r.limit = some n) : r.fuel = n - r.depth + 1 := by
  rw [Resolver.fuel, h, Option.elim_some]

omit [Store σ] in
theorem fuel_of_unlimited (h : r.limit = none) : r.fuel = boundlessFuel := by
  rw [Resolver.fuel, h, Option.elim_none]

/-- A run without the warning is the same with any fuel that the limit would need. -/
theorem on_limitedBy {outcome : Except Error Resolved}
    (run : (unroll nodes).on (r.limitedBy (some n)) = some (outcome, r'))
    (unreached : Unreached n r r') (allows : Allows limit n) (enough : n - r.depth < fuel) :
    (walk (embed Step.load fuel) nodes).on (r.limitedBy limit) =
      some (outcome, r'.limitedBy limit) := by
  rw [unroll_on, fuel_of_limit rfl] at run
  obtain ⟨out, rfl, derived⟩ := Resolves.of_on run
  have relimited := derived.limitedBy rfl unreached allows
  exact walk_on_of_le enough relimited.on

/-- A run under a limit that adds no warning that the limit was reached is the same under any limit
that allows more: it has the same outcome, and the store, the notes that are known and the warnings
are the same after it. It is the same without a limit too, given fuel for the embeds that the limit
allows. -/
theorem unreached_limit_invisible {outcome : Except Error Resolved} {warnings : List String}
    (run : (unroll nodes).on (r.limitedBy (some n)) = some (outcome, r'))
    (adds : r'.warnings = r.warnings ++ warnings)
    (unreached : ∀ address, depthWarning n address ∉ warnings) :
    (∀ m, n ≤ m →
      (unroll nodes).on (r.limitedBy (some m)) = some (outcome, r'.limitedBy (some m))) ∧
    (∀ fuel, n - r.depth < fuel →
      (walk (embed Step.load fuel) nodes).on (r.limitedBy none) =
        some (outcome, r'.limitedBy none)) ∧
    (n - r.depth < boundlessFuel →
      (unroll nodes).on (r.limitedBy none) = some (outcome, r'.limitedBy none)) := by
  have quiet : Unreached n r r' := by
    rw [Unreached, emitted_of_append adds]
    exact unreached
  have withoutLimit : Allows none n := nofun
  refine ⟨?_, ?_, ?_⟩
  · intro m le
    have allows : Allows (some m) n := by
      intro m' same
      cases same
      exact le
    have enough : n - r.depth < m - r.depth + 1 := by omega
    rw [unroll_on, fuel_of_limit rfl]
    exact on_limitedBy run quiet allows enough
  · intro fuel enough
    exact on_limitedBy run quiet withoutLimit enough
  · intro enough
    rw [unroll_on, fuel_of_unlimited rfl]
    exact on_limitedBy run quiet withoutLimit enough

/-- A note with an embed of another, which has one of a note that is not there. -/
def outerAndInner : Memory :=
  ⟨[(⟨"inner.md"⟩, "# Inner\n![[lost]]\n"), (⟨"outer.md"⟩, "# Outer\n![[inner]]\n")], [], []⟩

theorem unreached_limit_invisible_outerAndInner :
    ∃ outcome r', (unroll [.embed ⟨"outer", none, none⟩]).on
        ((initial outerAndInner .empty none).limitedBy (some 3)) = some (outcome, r') ∧
      r'.warnings = ["File not found: lost"] ∧
      (∀ address, depthWarning 3 address ∉ r'.warnings) ∧
      (unroll [.embed ⟨"outer", none, none⟩]).on
        ((initial outerAndInner .empty none).limitedBy (some 7)) =
          some (outcome, r'.limitedBy (some 7)) ∧
      (unroll [.embed ⟨"outer", none, none⟩]).on
        ((initial outerAndInner .empty none).limitedBy none) =
          some (outcome, r'.limitedBy none) := by
  have warns : ((unroll [.embed ⟨"outer", none, none⟩]).on
      ((initial outerAndInner .empty none).limitedBy (some 3))).map (·.2.warnings) =
        some ["File not found: lost"] := by decide +kernel
  obtain ⟨⟨outcome, r'⟩, run, warnings⟩ := Option.map_eq_some_iff.1 warns
  have unreached : ∀ address, depthWarning 3 address ∉ r'.warnings := by
    intro address mem
    rw [warnings, List.mem_singleton] at mem
    exact depthWarning_ne (by decide +kernel) mem
  obtain ⟨under, -, without⟩ := unreached_limit_invisible run (List.nil_append _).symm unreached
  have enough : 3 < boundlessFuel := Nat.lt_trans (by decide) (Nat.lt_two_pow_self (n := 62))
  exact ⟨outcome, r', run, warnings, unreached, under 7 (by decide), without enough⟩

end Longform.Resolver
