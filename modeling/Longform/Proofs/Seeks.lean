import Longform.Resolver

/-!
# What a search for an embed can do

`Seeks load r link t r'` lists the ways in which `Resolver.seek` can end: with an
image found or missing, at the limit of nesting, with no such note, with a note
that cannot be had or lacks the heading, or with the blocks that the link means.
`Seeks.of_on` says that the list is complete and `Seeks.on` that every way in it is
taken, so that nothing after it takes `seek` apart again.

In no case does the search fail: whatever `load` throws has become a warning.
-/

namespace Longform.Resolver

variable {σ : Type} [Store σ]

/-- How the search for an embed ends, and in which state. -/
inductive Seeks (load : Document → Step σ Note) (r : Resolver σ) (link : Link) :
    Target → Resolver σ → Prop
  | figure {file : Document} {warnings : List String} {store : σ} :
    isImageAddress link.address = true →
    Store.findImage link.address r.store = (⟨some file, warnings⟩, store) →
    Seeks load r link (.done ⟨[.figure file link.label], ⟨[file], []⟩⟩)
      (r.searched warnings store)
  | noImage {warnings : List String} {store : σ} :
    isImageAddress link.address = true →
    Store.findImage link.address r.store = (⟨none, warnings⟩, store) →
    Seeks load r link (.done .empty) (r.searched warnings store)
  | tooDeep {limit : Nat} :
    isImageAddress link.address = false → r.reachedLimit? = some limit →
    Seeks load r link (.done .empty) (r.warned (depthWarning limit link.address))
  | missing {warnings : List String} {store : σ} :
    isImageAddress link.address = false → r.reachedLimit? = none →
    Store.find link.address r.store = (⟨none, warnings⟩, store) →
    Seeks load r link (.done .empty) (r.searched warnings store)
  | unloadable {d : Document} {warnings : List String} {store : σ} {e : Error}
    {r₁ : Resolver σ} :
    isImageAddress link.address = false → r.reachedLimit? = none →
    Store.find link.address r.store = (⟨some d, warnings⟩, store) →
    (load d).on (r.searched warnings store) = some (.error e, r₁) →
    Seeks load r link (.done .empty) (r₁.warned (loadWarning link.address e))
  | noHeading {d : Document} {warnings : List String} {store : σ} {note : Note}
    {r₁ : Resolver σ} :
    isImageAddress link.address = false → r.reachedLimit? = none →
    Store.find link.address r.store = (⟨some d, warnings⟩, store) →
    (load d).on (r.searched warnings store) = some (.ok note, r₁) →
    target? link d note = none →
    Seeks load r link (.done .empty)
      (r₁.warned (headingWarning (link.heading.getD "") link.address))
  | content {d : Document} {warnings : List String} {store : σ} {note : Note}
    {r₁ : Resolver σ} {frame : Frame} {nodes : List Node} :
    isImageAddress link.address = false → r.reachedLimit? = none →
    Store.find link.address r.store = (⟨some d, warnings⟩, store) →
    (load d).on (r.searched warnings store) = some (.ok note, r₁) →
    target? link d note = some (frame, nodes) →
    Seeks load r link (.content frame nodes) r₁

variable {load : Document → Step σ Note} {link : Link} {r r' : Resolver σ}

/-! ## Elementary steps -/

omit [Store σ] in
theorem on_search (find : σ → Lookup × σ) (r : Resolver σ) :
    (Step.search find).on r =
      some (.ok (find r.store).1.found, r.searched (find r.store).1.warnings (find r.store).2) :=
  rfl

omit [Store σ] in
theorem on_search_of_eq {find : σ → Lookup × σ} {found : Option Document}
    {warnings : List String} {store : σ} (h : find r.store = (⟨found, warnings⟩, store)) :
    (Step.search find).on r = some (.ok found, r.searched warnings store) := by
  rw [on_search, h]

theorem on_readNote (d : Document) (r : Resolver σ) :
    (Step.readNote d).on r =
      some ((Store.read d r.store).1.bind Note.parse, r.withStore (Store.read d r.store).2) := by
  have read : (Step.readText d).on r =
      some ((Store.read d r.store).1, r.withStore (Store.read d r.store).2) := by
    rcases h : Store.read d r.store with ⟨_ | _, s⟩ <;>
      simp only [Step.readText, Action.on_bind, Action.on_get, Option.bind_some, h,
        Action.on_set, Action.on_ofExcept]
  rw [Step.readNote, Action.on_bind, read]
  rcases (Store.read d r.store).1 with _ | text
  · rfl
  · exact Action.on_ofExcept _ _

/-- A known note is given as it is; any other is read, and known from then on. -/
theorem on_load (d : Document) (r : Resolver σ) :
    (Step.load d).on r =
      match r.cache.find? d.basename with
      | some note => some (.ok note, r)
      | none =>
        match (Store.read d r.store).1.bind Note.parse with
        | .error e => some (.error e, r.withStore (Store.read d r.store).2)
        | .ok note =>
          some (.ok note, (r.withStore (Store.read d r.store).2).withNote d.basename note) := by
  simp only [Step.load, Action.on_bind, Action.on_get, Option.bind_some]
  cases r.cache.find? d.basename with
  | some note => rfl
  | none =>
    simp only [Action.on_bind, on_readNote, Option.bind_some]
    cases (Store.read d r.store).1.bind Note.parse <;> rfl

/-- How a note is come by does not depend on what `change` changes, if that is neither the store nor
what is known. -/
theorem load_on_change (change : Resolver σ → Resolver σ) (store : ∀ r, (change r).store = r.store)
    (cache : ∀ r, (change r).cache = r.cache)
    (withStore : ∀ r s, (change r).withStore s = change (r.withStore s))
    (withNote : ∀ r name note, (change r).withNote name note = change (r.withNote name note))
    (d : Document) (r : Resolver σ) :
    (Step.load d).on (change r) =
      ((Step.load d).on r).map fun (outcome, r') => (outcome, change r') := by
  rw [on_load, on_load, cache, store]
  cases r.cache.find? d.basename with
  | some note => rfl
  | none =>
    cases (Store.read d r.store).1.bind Note.parse with
    | error e => simp only [Option.map_some, withStore]
    | ok note => simp only [Option.map_some, withStore, withNote]

/-- What loading can do: give a note that is known, fail to read one, or read one. -/
theorem load_cases {d : Document} {outcome : Except Error Note}
    (run : (Step.load d).on r = some (outcome, r')) :
    (∃ note, r.cache.find? d.basename = some note ∧ outcome = .ok note ∧ r' = r) ∨
    (r.cache.find? d.basename = none ∧ ∃ e, (Store.read d r.store).1.bind Note.parse = .error e ∧
      outcome = .error e ∧ r' = r.withStore (Store.read d r.store).2) ∨
    r.cache.find? d.basename = none ∧ ∃ note, (Store.read d r.store).1.bind Note.parse = .ok note ∧
      outcome = .ok note ∧
      r' = (r.withStore (Store.read d r.store).2).withNote d.basename note := by
  rw [on_load] at run
  rcases found : r.cache.find? d.basename with _ | note
  · rcases read : (Store.read d r.store).1.bind Note.parse with e | note
    · simp only [found, read] at run
      cases run
      exact .inr (.inl ⟨rfl, e, rfl, rfl, rfl⟩)
    · simp only [found, read] at run
      cases run
      exact .inr (.inr ⟨rfl, note, rfl, rfl, rfl⟩)
  · simp only [found] at run
    cases run
    exact .inl ⟨note, rfl, rfl, rfl⟩

/-! ## The search and the list of its ends -/

theorem seek_on_image (h : isImageAddress link.address = true) :
    (seek load link).on r = (image link).on r := by
  rw [seek, if_pos h]

/-- A note is looked for as long as embeds may be nested once more. -/
theorem seek_on_note (h : isImageAddress link.address = false) (free : r.reachedLimit? = none) :
    (seek load link).on r = (note load link).on r := by
  rw [seek, h, if_neg Bool.false_ne_true, Action.on_bind_of_ok (Action.on_get r), free]

theorem seek_on_limit {limit : Nat} (h : isImageAddress link.address = false)
    (reached : r.reachedLimit? = some limit) :
    (seek load link).on r =
      some (.ok (.done .empty), r.warned (depthWarning limit link.address)) := by
  rw [seek, h, if_neg Bool.false_ne_true, Action.on_bind_of_ok (Action.on_get r), reached]
  rfl

/-- What becomes of a note that is found, by what `load` makes of it. -/
theorem note_on_found {d : Document} {warnings : List String} {store : σ}
    (found : Store.find link.address r.store = (⟨some d, warnings⟩, store)) :
    (note load link).on r =
      ((load d).on (r.searched warnings store)).map fun (outcome, r₁) =>
        match outcome with
        | .error e => (.ok (.done .empty), r₁.warned (loadWarning link.address e))
        | .ok note =>
          match target? link d note with
          | none =>
            (.ok (.done .empty),
              r₁.warned (headingWarning (link.heading.getD "") link.address))
          | some (frame, nodes) => (.ok (.content frame nodes), r₁) := by
  rw [note, Action.on_bind_of_ok (on_search_of_eq found)]
  simp only [Action.on_bind, Action.on_observe]
  rcases (load d).on (r.searched warnings store) with _ | ⟨e | note, r₁⟩
  · rfl
  · rfl
  · simp only [Option.map_some, Option.bind_some]
    rcases target? link d note with _ | ⟨frame, nodes⟩ <;> rfl

theorem image_on (h : isImageAddress link.address = true) {outcome : Except Error Target}
    (run : (image link).on r = some (outcome, r')) :
    ∃ t, outcome = .ok t ∧ Seeks load r link t r' := by
  rcases found : Store.findImage link.address r.store with ⟨⟨_ | file, warnings⟩, store⟩
  · rw [image, Action.on_bind_of_ok (on_search_of_eq found)] at run
    cases run
    exact ⟨_, rfl, .noImage h found⟩
  · rw [image, Action.on_bind_of_ok (on_search_of_eq found)] at run
    cases run
    exact ⟨_, rfl, .figure h found⟩

theorem note_on (h : isImageAddress link.address = false) (free : r.reachedLimit? = none)
    {outcome : Except Error Target} (run : (note load link).on r = some (outcome, r')) :
    ∃ t, outcome = .ok t ∧ Seeks load r link t r' := by
  rcases found : Store.find link.address r.store with ⟨⟨_ | d, warnings⟩, store⟩
  · rw [note, Action.on_bind_of_ok (on_search_of_eq found)] at run
    cases run
    exact ⟨_, rfl, .missing h free found⟩
  rw [note_on_found found] at run
  rcases loaded : (load d).on (r.searched warnings store) with _ | ⟨e | note, r₁⟩
  · rw [loaded] at run
    cases run
  · rw [loaded] at run
    cases run
    exact ⟨_, rfl, .unloadable h free found loaded⟩
  · rcases aim : target? link d note with _ | ⟨frame, nodes⟩
    · simp only [loaded, Option.map_some, aim] at run
      cases run
      exact ⟨_, rfl, .noHeading h free found loaded aim⟩
    · simp only [loaded, Option.map_some, aim] at run
      cases run
      exact ⟨_, rfl, .content h free found loaded aim⟩

/-- A search ends in one of the listed ways, and never with a failure. -/
theorem Seeks.of_on {outcome : Except Error Target}
    (run : (seek load link).on r = some (outcome, r')) :
    ∃ t, outcome = .ok t ∧ Seeks load r link t r' := by
  rcases h : isImageAddress link.address with _ | _
  · rcases reached : r.reachedLimit? with _ | limit
    · rw [seek_on_note h reached] at run
      exact note_on h reached run
    · rw [seek_on_limit h reached] at run
      cases run
      exact ⟨_, rfl, .tooDeep h reached⟩
  · rw [seek_on_image h] at run
    exact image_on h run

/-- Each of the listed ways is taken. -/
theorem Seeks.on {t : Target} (h : Seeks load r link t r') :
    (seek load link).on r = some (.ok t, r') := by
  cases h with
  | figure h found =>
    rw [seek_on_image h, image, Action.on_bind_of_ok (on_search_of_eq found)]
    rfl
  | noImage h found =>
    rw [seek_on_image h, image, Action.on_bind_of_ok (on_search_of_eq found)]
    rfl
  | tooDeep h reached => exact seek_on_limit h reached
  | missing h free found =>
    rw [seek_on_note h free, note, Action.on_bind_of_ok (on_search_of_eq found)]
    rfl
  | unloadable h free found loaded =>
    rw [seek_on_note h free, note_on_found found, loaded]
    rfl
  | noHeading h free found loaded aim =>
    rw [seek_on_note h free, note_on_found found]
    simp only [loaded, Option.map_some, aim]
  | content h free found loaded aim =>
    rw [seek_on_note h free, note_on_found found]
    simp only [loaded, Option.map_some, aim]

end Longform.Resolver
