import Longform.Export
import Longform.Proofs.Resolves

/-!
# How a manuscript comes about

The run of an export as the runs of the resolver it is made of. A region starts
with a fresh place and ends with the store, the warnings and the notes that its
resolver ended with; `ResolvesRegions` puts the three of them in a row.

* `ResolvesRegions.of_on` and `ResolvesRegions.on`: `Export.regions` runs in
  exactly this way.
* `assemble_eq`: an export first has its root note and then makes the manuscript of it.
* `assemble_on_error` and `assemble_on_ok`: without a root note it fails, and with one
  it ends as its regions do.
-/

namespace Longform.Export

variable {σ : Type} [Store σ]

open Resolver (AtSplice Anyhow Resolves)

/-! ## Regions -/

/-- How the blocks of one region are resolved, from a session and the notes known to it. -/
inductive ResolvesRegion (P : AtSplice σ) (limit : Option Nat) (frame : Option Frame)
    (nodes : List Node) (s : Session σ) (cache : Cache) :
    Resolved → Session σ → Cache → Prop
  | intro {out : Resolved} {r : Resolver σ} :
    Resolves Resolver.Step.load P (resolver s cache frame.toList limit).fuel
      (resolver s cache frame.toList limit) nodes out r →
    ResolvesRegion P limit frame nodes s cache out (resolved s r) r.cache

/-- How the blocks of a heading are resolved, if there is a heading. -/
inductive ResolvesHeading (P : AtSplice σ) (limit : Option Nat) (s : Session σ) (cache : Cache) :
    Option Heading → Option Resolved → Session σ → Cache → Prop
  | absent : ResolvesHeading P limit s cache none none s cache
  | present {h : Heading} {out : Resolved} {s' : Session σ} {cache' : Cache} :
    ResolvesRegion P limit (some (frameOf h)) h.children s cache out s' cache' →
    ResolvesHeading P limit s cache (some h) (some out) s' cache'

/-- How the regions of a note are resolved, each with the notes that those before it have read. -/
inductive ResolvesRegions (P : AtSplice σ) (limit : Option Nat) (sections : Sections)
    (s : Session σ) (cache : Cache) : Regions → Session σ → Prop
  | intro {abstractPart appendix : Option Resolved} {body : Resolved} {s₁ s₂ s₃ : Session σ}
    {cache₁ cache₂ cache₃ : Cache} :
    ResolvesHeading P limit s cache sections.abstractHeading abstractPart s₁ cache₁ →
    ResolvesRegion P limit (sections.bodyHeading.map frameOf) sections.body s₁ cache₁
      body s₂ cache₂ →
    ResolvesHeading P limit s₂ cache₂ sections.appendixHeading appendix s₃ cache₃ →
    ResolvesRegions P limit sections s cache ⟨abstractPart, body, appendix⟩ s₃

variable {P : AtSplice σ} {limit : Option Nat} {frame : Option Frame} {nodes : List Node}
  {s s' : Session σ} {cache cache' : Cache}

omit [Store σ] in
theorem resolving_on {α : Type} (step : Resolver.Step σ α) (cache : Cache) (frames : List Frame)
    (limit : Option Nat) (s : Session σ) :
    (resolving step cache frames limit).on s =
      (step.on (resolver s cache frames limit)).map fun (outcome, r) =>
        (outcome.map (·, r.cache), resolved s r) := by
  change (do
    let p ← step.on (resolver s cache frames limit)
    pure (p.1.map (·, p.2.cache), resolved s p.2)) = _
  cases step.on (resolver s cache frames limit) <;> rfl

theorem ResolvesRegion.of_on {outcome : Except Error (Resolved × Cache)}
    (run : (region limit frame nodes cache).on s = some (outcome, s')) :
    ∃ p, outcome = .ok p ∧ ResolvesRegion Anyhow limit frame nodes s cache p.1 s' p.2 := by
  rw [region, resolving_on] at run
  obtain ⟨⟨_, r⟩, inside, same⟩ := Option.map_eq_some_iff.1 run
  obtain ⟨out, rfl, derived⟩ := Resolves.of_on inside
  cases same
  exact ⟨_, rfl, .intro derived⟩

theorem ResolvesRegion.on {out : Resolved}
    (h : ResolvesRegion P limit frame nodes s cache out s' cache') :
    (region limit frame nodes cache).on s = some (.ok (out, cache'), s') := by
  cases h with
  | intro derived =>
    have inside : (Resolver.unroll nodes).on (resolver s cache frame.toList limit) = _ := derived.on
    rw [region, resolving_on, inside]
    rfl

theorem ResolvesHeading.of_on {h : Option Heading}
    {outcome : Except Error (Option Resolved × Cache)}
    (run : (headingRegion limit h cache).on s = some (outcome, s')) :
    ∃ p, outcome = .ok p ∧ ResolvesHeading Anyhow limit s cache h p.1 s' p.2 := by
  cases h with
  | none =>
    cases run
    exact ⟨_, rfl, .absent⟩
  | some h =>
    rw [headingRegion] at run
    obtain ⟨⟨part, cache'⟩, s₁, derived, run⟩ :=
      Action.of_on_bind_of_spec ResolvesRegion.of_on run
    cases run
    exact ⟨_, rfl, .present derived⟩

theorem ResolvesHeading.on {h : Option Heading} {part : Option Resolved}
    (derived : ResolvesHeading P limit s cache h part s' cache') :
    (headingRegion limit h cache).on s = some (.ok (part, cache'), s') := by
  cases derived with
  | absent => rfl
  | present inside =>
    rw [headingRegion, Action.on_bind_of_ok inside.on]
    rfl

variable {sections : Sections} {parts : Regions}

/-- The regions of a note are resolved as described, and without failure. -/
theorem ResolvesRegions.of_on {outcome : Except Error Regions}
    (run : (regions limit sections cache).on s = some (outcome, s')) :
    ∃ parts, outcome = .ok parts ∧ ResolvesRegions Anyhow limit sections s cache parts s' := by
  rw [regions] at run
  obtain ⟨⟨abstractPart, cache₁⟩, s₁, first, run⟩ :=
    Action.of_on_bind_of_spec ResolvesHeading.of_on run
  obtain ⟨⟨body, cache₂⟩, s₂, second, run⟩ := Action.of_on_bind_of_spec ResolvesRegion.of_on run
  obtain ⟨⟨appendix, cache₃⟩, s₃, third, run⟩ :=
    Action.of_on_bind_of_spec ResolvesHeading.of_on run
  cases run
  exact ⟨_, rfl, .intro first second third⟩

theorem ResolvesRegions.on (h : ResolvesRegions P limit sections s cache parts s') :
    (regions limit sections cache).on s = some (.ok parts, s') := by
  cases h with
  | intro first second third =>
    rw [regions, Action.on_bind_of_ok first.on, Action.on_bind_of_ok second.on,
      Action.on_bind_of_ok third.on]
    rfl

/-! ## The root note -/

/-- The text that is exported, and the session after it was got. -/
def rootOutcome (root : Document) (selection : Option String) (s : Session σ) :
    Except Error String × Session σ :=
  match selection with
  | some text => (.ok text, s)
  | none => ((Store.read root s.store).1, { s with store := (Store.read root s.store).2 })

variable {root : Document} {selection : Option String} {options : ExportOptions}

theorem readText_on (d : Document) (s : Session σ) :
    (readText d).on s =
      some ((Store.read d s.store).1, { s with store := (Store.read d s.store).2 }) := by
  rw [readText, Action.on_bind_of_ok (Action.on_get s)]
  rcases Store.read d s.store with ⟨_ | _, _⟩ <;> rfl

theorem rootText_on (root : Document) (selection : Option String) (s : Session σ) :
    (rootText root selection).on s = some (rootOutcome root selection s) := by
  cases selection with
  | some text => rfl
  | none => exact readText_on root s

theorem rootNote_on (root : Document) (selection : Option String) (s : Session σ) :
    (rootNote root selection).on s =
      some ((rootOutcome root selection s).1.bind Note.parse,
        (rootOutcome root selection s).2) := by
  rw [rootNote, Action.on_bind, rootText_on]
  rcases rootOutcome root selection s with ⟨_ | text, s'⟩
  · rfl
  · exact Action.on_ofExcept _ _

/-! ## Manuscripts -/

/-- The manuscript of a note that has been read. -/
def manuscriptOf {σ : Type} [Store σ] (root : Document) (note : Note) (options : ExportOptions) :
    Export σ Manuscript := do
  let parts ← regions options.maxEmbedDepth (Sections.classify note.body)
    (Cache.empty.add root.basename note)
  return parts.manuscript note.frontMatter

/-- To export a note is to read it and to make its manuscript. -/
theorem assemble_eq {σ : Type} [Store σ] (root : Document) (selection : Option String)
    (options : ExportOptions) :
    (assemble root selection options : Export σ Manuscript) =
      rootNote root selection >>= fun note => manuscriptOf root note options := rfl

/-- The manuscript of a note is rendered from its regions. -/
theorem manuscriptOf_on (root : Document) (note : Note) (options : ExportOptions)
    (s : Session σ) :
    (manuscriptOf root note options).on s =
      ((regions options.maxEmbedDepth (Sections.classify note.body)
        (Cache.empty.add root.basename note)).on s).map
        fun (outcome, s') => (outcome.map fun parts => parts.manuscript note.frontMatter, s') := by
  rw [manuscriptOf, Action.on_bind]
  rcases (regions _ _ _).on _ with _ | ⟨_ | _, _⟩ <;> rfl

/-- An export without a root note fails with the reason. -/
theorem assemble_on_error {e : Error}
    (failed : (rootOutcome root selection s).1.bind Note.parse = .error e) :
    (assemble root selection options).on s =
      some (.error e, (rootOutcome root selection s).2) := by
  rw [assemble_eq]
  exact Action.on_bind_of_error (by rw [rootNote_on, failed])

/-- An export with a root note resolves its regions and renders them. -/
theorem assemble_on_ok {note : Note}
    (parsed : (rootOutcome root selection s).1.bind Note.parse = .ok note) :
    (assemble root selection options).on s =
      ((regions options.maxEmbedDepth (Sections.classify note.body)
        (Cache.empty.add root.basename note)).on (rootOutcome root selection s).2).map
        fun (outcome, s') => (outcome.map fun parts => parts.manuscript note.frontMatter, s') := by
  have given := rootNote_on root selection s
  rw [parsed] at given
  rw [assemble_eq, Action.on_bind_of_ok given, manuscriptOf_on]

/-- An export that succeeds renders regions that were resolved as described. -/
theorem exists_regions_of_assemble {m : Manuscript}
    (run : (assemble root selection options).on s = some (.ok m, s')) :
    ∃ note parts, (rootOutcome root selection s).1.bind Note.parse = .ok note ∧
      m = parts.manuscript note.frontMatter ∧
      ResolvesRegions Anyhow options.maxEmbedDepth (Sections.classify note.body)
        (rootOutcome root selection s).2 (Cache.empty.add root.basename note) parts s' := by
  rcases parsed : (rootOutcome root selection s).1.bind Note.parse with e | note
  · rw [assemble_on_error parsed] at run
    cases run
  · rw [assemble_on_ok parsed] at run
    obtain ⟨⟨outcome, s₁⟩, inside, same⟩ := Option.map_eq_some_iff.1 run
    obtain ⟨parts, rfl, derived⟩ := ResolvesRegions.of_on inside
    cases same
    exact ⟨note, parts, rfl, rfl, derived⟩

end Longform.Export
