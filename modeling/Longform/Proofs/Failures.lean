import Longform.Proofs.Assembly
import Longform.Proofs.Termination

/-!
# What can make an export fail

Nothing that goes wrong with an embed is a failure, at whatever depth it is met
and whatever the store does (`walk_ne_error`, `embed_ne_error`). So only the root
note is left to make an export fail, and `assemble_error_iff` says with which
error it does. Under a limit an export has an outcome (`assemble_on_limit`).

`failures_come_from_root` is all of this together.
-/

namespace Longform.Export

variable {σ : Type} [Store σ]

open Resolver (Resolves Extends embed_sound)

/-- A run that resolves blocks does not fail. -/
theorem walk_ne_error (fuel : Nat) (nodes : List Node) (r r' : Resolver σ) (e : Error) :
    (Resolver.walk (Resolver.embed Resolver.Step.load fuel) nodes).on r ≠ some (.error e, r') := by
  intro failed
  obtain ⟨_, impossible, _⟩ := Resolves.of_on failed
  cases impossible

/-- A run that resolves one embed does not fail. -/
theorem embed_ne_error (fuel : Nat) (link : Link) (r r' : Resolver σ) (e : Error) :
    (Resolver.embed Resolver.Step.load fuel link).on r ≠ some (.error e, r') := by
  intro failed
  obtain ⟨_, impossible, _⟩ := embed_sound fuel failed
  cases impossible

/-- An export fails exactly when it has no root note, and for that reason. -/
theorem assemble_error_iff (root : Document) (selection : Option String)
    (options : ExportOptions) (s : Session σ) (e : Error) :
    (∃ s', (assemble root selection options).on s = some (.error e, s')) ↔
      (rootOutcome root selection s).1.bind Note.parse = .error e := by
  constructor
  · rintro ⟨s', failed⟩
    rcases parsed : (rootOutcome root selection s).1.bind Note.parse with e' | note
    · rw [assemble_on_error parsed] at failed
      cases failed
      rfl
    · rw [assemble_on_ok parsed] at failed
      obtain ⟨⟨outcome, s₁⟩, run, same⟩ := Option.map_eq_some_iff.1 failed
      obtain ⟨parts, rfl, -⟩ := ResolvesRegions.of_on run
      cases same
  · intro failed
    exact ⟨_, assemble_on_error failed⟩

theorem bind_eq_error_iff {α β : Type} {x : Except Error α} {f : α → Except Error β} {e : Error} :
    x.bind f = .error e ↔ x = .error e ∨ ∃ v, x = .ok v ∧ f v = .error e := by
  cases x with
  | error e' => simp [Except.bind]
  | ok v => simp [Except.bind]

/-- The ways in which there is no root note: without a selection it may be unreadable, and the
text that is exported may not be a note. -/
theorem rootOutcome_error_iff (root : Document) (selection : Option String) (s : Session σ)
    (e : Error) :
    (rootOutcome root selection s).1.bind Note.parse = .error e ↔
      (selection = none ∧ (Store.read root s.store).1 = .error e) ∨
        ∃ text, (selection = some text ∨
            selection = none ∧ (Store.read root s.store).1 = .ok text) ∧
          Note.parse text = .error e := by
  rw [bind_eq_error_iff]
  cases selection with
  | none => simp [rootOutcome]
  | some text => simp [rootOutcome]

/-! ## Answers under a limit -/

theorem region_on_limit (n : Nat) (frame : Option Frame) (nodes : List Node) (cache : Cache)
    (s : Session σ) : ∃ p s', (region (some n) frame nodes cache).on s = some (.ok p, s') := by
  have limited : (resolver s cache frame.toList (some n)).limit = some n := rfl
  obtain ⟨out, r', run⟩ := Resolver.unroll_on_limit limited nodes
  rw [region, resolving_on, run]
  exact ⟨_, _, rfl⟩

theorem headingRegion_on_limit (n : Nat) (h : Option Heading) (cache : Cache) (s : Session σ) :
    ∃ p s', (headingRegion (some n) h cache).on s = some (.ok p, s') := by
  cases h with
  | none => exact ⟨_, _, rfl⟩
  | some h =>
    obtain ⟨p, s', run⟩ := region_on_limit n (some (frameOf h)) h.children cache s
    rw [headingRegion, Action.on_bind_of_ok run]
    exact ⟨_, _, rfl⟩

theorem regions_on_limit (n : Nat) (sections : Sections) (cache : Cache) (s : Session σ) :
    ∃ parts s', (regions (some n) sections cache).on s = some (.ok parts, s') := by
  obtain ⟨⟨_, cache₁⟩, s₁, first⟩ := headingRegion_on_limit n sections.abstractHeading cache s
  obtain ⟨⟨_, cache₂⟩, s₂, second⟩ :=
    region_on_limit n (sections.bodyHeading.map frameOf) sections.body cache₁ s₁
  obtain ⟨⟨_, cache₃⟩, s₃, third⟩ := headingRegion_on_limit n sections.appendixHeading cache₂ s₂
  rw [regions, Action.on_bind_of_ok first, Action.on_bind_of_ok second,
    Action.on_bind_of_ok third]
  exact ⟨_, _, rfl⟩

/-- An export under a limit has an outcome. -/
theorem assemble_on_limit (n : Nat) (root : Document) (selection : Option String)
    (options : ExportOptions) (s : Session σ) :
    ∃ outcome s', (assemble root selection { options with maxEmbedDepth := some n }).on s =
      some (outcome, s') := by
  rcases parsed : (rootOutcome root selection s).1.bind Note.parse with e | note
  · exact ⟨_, _, assemble_on_error parsed⟩
  · obtain ⟨parts, s', run⟩ := regions_on_limit n (Sections.classify note.body)
      (Cache.empty.add root.basename note) (rootOutcome root selection s).2
    rw [assemble_on_ok parsed, run]
    exact ⟨_, _, rfl⟩

/-- An export of a note under a limit succeeds. -/
theorem exists_manuscript_of_limit {root : Document} {selection : Option String}
    {options : ExportOptions} {s : Session σ} {note : Note} {n : Nat}
    (limited : options.maxEmbedDepth = some n)
    (parsed : (rootOutcome root selection s).1.bind Note.parse = .ok note) :
    ∃ m s', (assemble root selection options).on s = some (.ok m, s') := by
  have same : { options with maxEmbedDepth := some n } = options := by
    rw [← limited]
  obtain ⟨outcome, s', run⟩ := assemble_on_limit n root selection options s
  rw [same] at run
  rcases outcome with e | m
  · have failed := (assemble_error_iff root selection options s e).1 ⟨s', run⟩
    rw [parsed] at failed
    cases failed
  · exact ⟨m, s', run⟩

/-- However far embeds are followed and whatever the store does, resolving blocks or an embed has no
failure, and under a limit it succeeds. An export fails if and only if its root, where no selection
is given, cannot be read, or its text is no note, and then with just that error; under a limit it
has an outcome. -/
theorem failures_come_from_root (nodes : List Node) (link : Link) (r : Resolver σ)
    (root : Document) (selection : Option String) (options : ExportOptions) (s : Session σ) :
    ((∀ fuel e r',
        (Resolver.walk (Resolver.embed Resolver.Step.load fuel) nodes).on r ≠
          some (.error e, r')) ∧
      (∀ fuel e r', (Resolver.embed Resolver.Step.load fuel link).on r ≠ some (.error e, r')) ∧
      (∀ e r', (Resolver.unroll nodes).on r ≠ some (.error e, r')) ∧
      ∀ e r', (Resolver.resolveEmbed link).on r ≠ some (.error e, r')) ∧
    (∀ n, (∃ out r', (Resolver.unroll nodes).on { r with limit := some n } =
          some (.ok out, r')) ∧
        ∃ out r', (Resolver.resolveEmbed link).on { r with limit := some n } =
          some (.ok out, r')) ∧
    (∀ e, (∃ s', (assemble root selection options).on s = some (.error e, s')) ↔
      (selection = none ∧ (Store.read root s.store).1 = .error e) ∨
        ∃ text, (selection = some text ∨
            selection = none ∧ (Store.read root s.store).1 = .ok text) ∧
          Note.parse text = .error e) ∧
    ∀ n, ∃ outcome s', (assemble root selection { options with maxEmbedDepth := some n }).on s =
      some (outcome, s') := by
  refine ⟨⟨?_, ?_, ?_, ?_⟩, ?_, ?_, ?_⟩
  · intro fuel e r'
    exact walk_ne_error fuel nodes r r' e
  · intro fuel e r'
    exact embed_ne_error fuel link r r' e
  · intro e r'
    exact walk_ne_error r.fuel nodes r r' e
  · intro e r'
    exact embed_ne_error r.fuel link r r' e
  · intro n
    have limited : ({ r with limit := some n } : Resolver σ).limit = some n := rfl
    exact ⟨Resolver.unroll_on_limit limited nodes, Resolver.resolveEmbed_on_limit limited link⟩
  · intro e
    exact (assemble_error_iff root selection options s e).trans
      (rootOutcome_error_iff root selection s e)
  · intro n
    exact assemble_on_limit n root selection options s

end Longform.Export
