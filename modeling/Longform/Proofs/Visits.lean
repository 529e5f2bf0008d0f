import Longform.Proofs.Assembly
import Longform.Proofs.Meets

/-!
# The embeds that an export meets

An export resolves its regions one after another, each with the notes that those
before it have read. `Visits root selection options s q link` says that it comes
to the embed `link` in one of them, in the state `q`, whether or not it has an
end.

What the searches for these embeds keep holds wherever an embed is met
(`Visits.keeps`) and after the last region (`exists_last_of_assemble`), once it
holds before the first.
-/

namespace Longform.Export

open Resolver (Anyhow AtSplice Seeks Stable)

variable {σ : Type} [Store σ] {limit : Option Nat} {sections : Sections} {s s' : Session σ}
  {cache cache' : Cache} {frame : Option Frame} {h : Option Heading} {nodes : List Node}
  {r q : Resolver σ} {link : Link} {root : Document} {selection : Option String}
  {options : ExportOptions} {note : Note} {P : AtSplice σ}

/-! ## Regions -/

/-- One of the regions of a note begins with the blocks `nodes` in the state `r`. -/
inductive Begins (limit : Option Nat) (sections : Sections) (s : Session σ) (cache : Cache) :
    Resolver σ → List Node → Prop
  | abstractPart {h : Heading} :
    sections.abstractHeading = some h →
    Begins limit sections s cache (resolver s cache [frameOf h] limit) h.children
  | body {part : Option Resolved} {s₁ : Session σ} {cache₁ : Cache} :
    ResolvesHeading Anyhow limit s cache sections.abstractHeading part s₁ cache₁ →
    Begins limit sections s cache
      (resolver s₁ cache₁ (sections.bodyHeading.map frameOf).toList limit) sections.body
  | appendix {h : Heading} {part : Option Resolved} {body : Resolved} {s₁ s₂ : Session σ}
    {cache₁ cache₂ : Cache} :
    ResolvesHeading Anyhow limit s cache sections.abstractHeading part s₁ cache₁ →
    ResolvesRegion Anyhow limit (sections.bodyHeading.map frameOf) sections.body s₁ cache₁
      body s₂ cache₂ →
    sections.appendixHeading = some h →
    Begins limit sections s cache (resolver s₂ cache₂ [frameOf h] limit) h.children

/-- The export of a note comes to the embed `link` in the state `q`. -/
def Visits (root : Document) (selection : Option String) (options : ExportOptions) (s : Session σ)
    (q : Resolver σ) (link : Link) : Prop :=
  ∃ note r nodes, (rootOutcome root selection s).1.bind Note.parse = .ok note ∧
    Begins options.maxEmbedDepth (Sections.classify note.body) (rootOutcome root selection s).2
      (Cache.empty.add root.basename note) r nodes ∧
    Resolver.Meets Resolver.Step.load r nodes q link

/-! ## What is kept -/

section Keeps

variable {I : Resolver σ → Prop} {A : Resolver σ → Link → Prop}

/-- Which headings are open does not matter when a region begins. -/
theorem begin_of_stable (stable : Stable Resolver.Step.load A I)
    (holds : I (resolver s cache [] limit)) (frames : List Frame) :
    I (resolver s cache frames limit) :=
  stable.anywhere _ frames 0 holds

/-- A region ends with what is kept by the searches for the embeds that it meets. -/
theorem ResolvesRegion.keeps {out : Resolved}
    (stable : Stable Resolver.Step.load A I)
    (h : ResolvesRegion P limit frame nodes s cache out s' cache')
    (met : ∀ q link, Resolver.Meets Resolver.Step.load (resolver s cache frame.toList limit) nodes
      q link → A q link)
    (holds : I (resolver s cache [] limit)) : I (resolver s' cache' [] limit) := by
  cases h with
  | @intro r derived =>
    have after := derived.keepsMeeting stable met
      (begin_of_stable stable holds frame.toList)
    obtain ⟨-, -, same⟩ := Resolver.place_eq_iff.1 (derived.place Resolver.staysAt_load)
    have whole : resolver (resolved s r) r.cache [] limit =
        { r with frames := [], depth := 0 } := by
      rw [resolver, resolved, show limit = r.limit from same.symm]
    rw [whole]
    exact stable.anywhere r [] 0 after

theorem ResolvesHeading.keeps {part : Option Resolved}
    (stable : Stable Resolver.Step.load A I)
    (derived : ResolvesHeading P limit s cache h part s' cache')
    (met : ∀ heading, h = some heading → ∀ q link,
      Resolver.Meets Resolver.Step.load (resolver s cache [frameOf heading] limit)
        heading.children q link → A q link)
    (holds : I (resolver s cache [] limit)) : I (resolver s' cache' [] limit) := by
  cases derived with
  | absent => exact holds
  | present inside => exact inside.keeps stable (met _ rfl) holds

/-- Every region begins with what is kept by the searches for the embeds that are met. -/
theorem Begins.keeps
    (stable : Stable Resolver.Step.load A I)
    (begins : Begins limit sections s cache r nodes)
    (met : ∀ {r nodes}, Begins limit sections s cache r nodes → ∀ q link,
      Resolver.Meets Resolver.Step.load r nodes q link → A q link)
    (holds : I (resolver s cache [] limit)) : I r := by
  have inAbstract : ∀ heading, sections.abstractHeading = some heading → ∀ q link,
      Resolver.Meets Resolver.Step.load (resolver s cache [frameOf heading] limit)
        heading.children q link → A q link :=
    fun _ same => met (.abstractPart same)
  cases begins with
  | abstractPart _ => exact begin_of_stable stable holds _
  | body first =>
    exact begin_of_stable stable (first.keeps stable inAbstract holds) _
  | appendix first second _ =>
    have afterAbstract := first.keeps stable inAbstract holds
    have afterBody := second.keeps stable (met (.body first)) afterAbstract
    exact begin_of_stable stable afterBody _

/-- The regions end with what is kept by the searches for the embeds that are met. -/
theorem ResolvesRegions.keeps {parts : Regions}
    (stable : Stable Resolver.Step.load A I)
    (h : ResolvesRegions Anyhow limit sections s cache parts s')
    (met : ∀ {r nodes}, Begins limit sections s cache r nodes → ∀ q link,
      Resolver.Meets Resolver.Step.load r nodes q link → A q link)
    (holds : I (resolver s cache [] limit)) : ∃ cache', I (resolver s' cache' [] limit) := by
  cases h with
  | intro first second third =>
    have afterAbstract :=
      first.keeps stable (fun _ same => met (.abstractPart same)) holds
    have afterBody := second.keeps stable (met (.body first)) afterAbstract
    have afterAppendix :=
      third.keeps stable (fun _ same => met (.appendix first second same)) afterBody
    exact ⟨_, afterAppendix⟩

/-- What the searches for the embeds that an export meets keep, holds wherever it meets one. -/
theorem Visits.keeps
    (stable : Stable Resolver.Step.load (Visits root selection options s) I)
    (holds : ∀ note, (rootOutcome root selection s).1.bind Note.parse = .ok note →
      I (resolver (rootOutcome root selection s).2 (Cache.empty.add root.basename note) []
        options.maxEmbedDepth))
    (visits : Visits root selection options s q link) : I q := by
  obtain ⟨note, r, nodes, parsed, begins, meets⟩ := visits
  have visited : ∀ {r nodes}, Begins options.maxEmbedDepth (Sections.classify note.body)
      (rootOutcome root selection s).2 (Cache.empty.add root.basename note) r nodes → ∀ q link,
      Resolver.Meets Resolver.Step.load r nodes q link → Visits root selection options s q link :=
    fun begins _ _ met => ⟨note, _, _, parsed, begins, met⟩
  have first := begins.keeps stable visited (holds note parsed)
  exact meets.keepsMeeting stable (visited begins) first

/-- After an export with a root note there is a state of the resolver that has what the searches for
the embeds that it meets keep. -/
theorem exists_last_of_assemble {outcome : Except Error Manuscript}
    (stable : Stable Resolver.Step.load (Visits root selection options s) I)
    (parsed : (rootOutcome root selection s).1.bind Note.parse = .ok note)
    (holds : I (resolver (rootOutcome root selection s).2 (Cache.empty.add root.basename note) []
      options.maxEmbedDepth))
    (run : (assemble root selection options).on s = some (outcome, s')) :
    ∃ r, I r ∧ s'.store = r.store := by
  rw [assemble_on_ok parsed] at run
  obtain ⟨⟨_, _⟩, inside, same⟩ := Option.map_eq_some_iff.1 run
  cases same
  obtain ⟨parts, -, derived⟩ := ResolvesRegions.of_on inside
  obtain ⟨cache', last⟩ := derived.keeps stable
    (fun begins _ _ met => ⟨note, _, _, parsed, begins, met⟩) holds
  exact ⟨_, last, rfl⟩

end Keeps

end Longform.Export
