import Longform.Proofs.Assembly
import Longform.Proofs.MemoryNotes

/-!
# Caching does not show

Two runs of the resolver over the same documents in memory that differ in what is
known of their notes, or in how they come by them, show the same as long as both
ways are faithful.

* `Seeks.transfer` and `Resolves.transfer`: a run in one state is a run in any
  state that is `Alike`, with alike states after it.
* `Export.Follows` says the same of steps of an export, and `follows_regions` of
  regions that know each what they like.
* `caching_invisible` is what this means for the cache: it shows neither in a run
  nor in what the regions of an export share.
-/

namespace Longform

namespace Resolver

variable {m : Memory} {load load' : Document → Step Memory Note} {d : Document} {link : Link}
  {r r' q : Resolver Memory} {fuel : Nat} {nodes : List Node} {out : Resolved}

/-! ## States that are alike -/

/-- Two resolvers over the documents of `m` that show the same. -/
structure Alike (m : Memory) (r q : Resolver Memory) : Prop where
  left : Agrees m r
  right : Agrees m q
  shown : r.shown = q.shown

theorem Alike.documents (h : Alike m r q) : r.store.documents = q.store.documents :=
  h.left.documents.trans h.right.documents.symm

theorem Alike.warnings (h : Alike m r q) : r.warnings = q.warnings := (Prod.mk.inj h.shown).1

theorem Alike.place (h : Alike m r q) : r.place = q.place := (Prod.mk.inj h.shown).2

theorem Alike.frames (h : Alike m r q) : r.frames = q.frames := (Prod.mk.inj h.place).1

theorem Alike.depth (h : Alike m r q) : r.depth = q.depth :=
  (Prod.mk.inj (Prod.mk.inj h.place).2).1

theorem Alike.limit (h : Alike m r q) : r.limit = q.limit :=
  (Prod.mk.inj (Prod.mk.inj h.place).2).2

/-- Alike resolvers stay alike when they move alike and warn alike. -/
theorem Alike.change (h : Alike m r q) {warnings warnings' : List String}
    {frames frames' : List Frame} {depth depth' : Nat} (sameWarnings : warnings = warnings')
    (sameFrames : frames = frames') (sameDepth : depth = depth') :
    Alike m { r with warnings, frames, depth }
      { q with warnings := warnings', frames := frames', depth := depth' } := by
  refine ⟨⟨h.left.documents, h.left.coherent⟩, ⟨h.right.documents, h.right.coherent⟩, ?_⟩
  simp only [Resolver.shown, Resolver.place, sameWarnings, sameFrames, sameDepth, h.limit]

theorem Alike.opened (h : Alike m r q) (frame : Frame) :
    Alike m (r.opened frame) (q.opened frame) :=
  h.change h.warnings (by rw [h.frames]) h.depth

theorem Alike.closed (h : Alike m r q) : Alike m r.closed q.closed :=
  h.change h.warnings (by rw [h.frames]) h.depth

theorem Alike.entered (h : Alike m r q) : Alike m r.entered q.entered :=
  h.change h.warnings h.frames (by rw [h.depth])

theorem Alike.leave (h : Alike m r q) : Alike m r.left q.left :=
  h.change h.warnings h.frames (by rw [h.depth])

theorem Alike.warned (h : Alike m r q) (warning : String) :
    Alike m (r.warned warning) (q.warned warning) :=
  h.change (by rw [h.warnings]) h.frames h.depth

theorem Alike.searched (h : Alike m r q) (warnings : List String) :
    Alike m (r.searched warnings r.store) (q.searched warnings q.store) :=
  h.change (by rw [h.warnings]) h.frames h.depth

theorem Alike.symm (h : Alike m r q) : Alike m q r := ⟨h.right, h.left, h.shown.symm⟩

/-! ## Searches and runs -/

theorem Faithful.transfer (faithful : Faithful m load) (faithful' : Faithful m load')
    (mem : d ∈ m.notes) (alike : Alike m r q) {outcome : Except Error Note} {r₁ : Resolver Memory}
    (loaded : (load d).on r = some (outcome, r₁)) :
    ∃ q₁, (load' d).on q = some (outcome, q₁) ∧ Alike m r₁ q₁ := by
  obtain ⟨r₂, run, agrees, shown⟩ := faithful mem alike.left
  obtain ⟨q₁, run', agrees', shown'⟩ := faithful' mem alike.right
  rw [run] at loaded
  cases loaded
  exact ⟨q₁, run', agrees, agrees', shown.trans (alike.shown.trans shown'.symm)⟩

/-- A note that is found and read is found and read in any state that is alike. -/
theorem note_transfer (faithful : Faithful m load) (faithful' : Faithful m load')
    (alike : Alike m r q) {warnings : List String} {store : Memory}
    (noImage : isImageAddress link.address = false)
    (found : Store.find link.address r.store = (⟨some d, warnings⟩, store))
    {outcome : Except Error Note} {r₁ : Resolver Memory}
    (loaded : (load d).on (r.searched warnings store) = some (outcome, r₁)) :
    Store.find link.address q.store = (⟨some d, warnings⟩, q.store) ∧
      ∃ q₁, (load' d).on (q.searched warnings q.store) = some (outcome, q₁) ∧ Alike m r₁ q₁ := by
  obtain ⟨rfl, found'⟩ := Memory.find_of_documents found alike.documents
  have mem := Memory.mem_notes_of_find noImage found
  rw [Memory.notes, alike.left.documents] at mem
  exact ⟨found', faithful.transfer faithful' mem (alike.searched warnings) loaded⟩

/-- What a search finds, it finds in any state that is alike. -/
theorem Seeks.transfer (faithful : Faithful m load) (faithful' : Faithful m load') {t : Target}
    (sought : Seeks load r link t r') (alike : Alike m r q) :
    ∃ q', Seeks load' q link t q' ∧ Alike m r' q' := by
  have same := alike.documents
  have reached := reachedLimit?_of_place alike.place
  cases sought with
  | @figure _ warnings _ isImage found =>
    obtain ⟨rfl, found'⟩ := Memory.findImage_of_documents found same
    exact ⟨_, .figure isImage found', alike.searched warnings⟩
  | @noImage warnings _ isImage found =>
    obtain ⟨rfl, found'⟩ := Memory.findImage_of_documents found same
    exact ⟨_, .noImage isImage found', alike.searched warnings⟩
  | tooDeep noImage atLimit =>
    exact ⟨_, .tooDeep noImage (reached.symm.trans atLimit), alike.warned _⟩
  | @missing warnings _ noImage free found =>
    obtain ⟨rfl, found'⟩ := Memory.find_of_documents found same
    exact ⟨_, .missing noImage (reached.symm.trans free) found', alike.searched warnings⟩
  | unloadable noImage free found loaded =>
    obtain ⟨found', q₁, loaded', alike₁⟩ :=
      note_transfer faithful faithful' alike noImage found loaded
    exact ⟨_, .unloadable noImage (reached.symm.trans free) found' loaded', alike₁.warned _⟩
  | noHeading noImage free found loaded aim =>
    obtain ⟨found', q₁, loaded', alike₁⟩ :=
      note_transfer faithful faithful' alike noImage found loaded
    exact ⟨_, .noHeading noImage (reached.symm.trans free) found' loaded' aim, alike₁.warned _⟩
  | content noImage free found loaded aim =>
    obtain ⟨found', q₁, loaded', alike₁⟩ :=
      note_transfer faithful faithful' alike noImage found loaded
    exact ⟨_, .content noImage (reached.symm.trans free) found' loaded' aim, alike₁⟩

/-- A run is a run in any state that is alike. -/
theorem Resolves.transfer (faithful : Faithful m load) (faithful' : Faithful m load')
    (h : Resolves load Anyhow fuel r nodes out r') (alike : Alike m r q) :
    ∃ q', Resolves load' Anyhow fuel q nodes out q' ∧ Alike m r' q' := by
  induction h generalizing q with
  | nil => exact ⟨q, .nil, alike⟩
  | heading _ _ ihInner ihRest =>
    obtain ⟨q₁, inner, alike₁⟩ := ihInner (alike.opened _)
    obtain ⟨q₂, rest, alike₂⟩ := ihRest alike₁.closed
    exact ⟨q₂, .heading inner rest, alike₂⟩
  | leaf isLeaf _ ih =>
    obtain ⟨q₁, rest, alike₁⟩ := ih alike
    exact ⟨q₁, .leaf isLeaf rest, alike₁⟩
  | noItems _ ih =>
    obtain ⟨q₁, rest, alike₁⟩ := ih alike
    exact ⟨q₁, .noItems rest, alike₁⟩
  | item _ _ ihItem ihRest =>
    obtain ⟨q₁, item, alike₁⟩ := ihItem alike
    obtain ⟨q₂, rest, alike₂⟩ := ihRest alike₁
    exact ⟨q₂, .item item rest, alike₂⟩
  | done sought _ ih =>
    obtain ⟨q₁, sought', alike₁⟩ := sought.transfer faithful faithful' alike
    obtain ⟨q₂, rest, alike₂⟩ := ih alike₁
    exact ⟨q₂, .done sought' rest, alike₂⟩
  | @splice _ _ frame _ _ _ _ _ r₁ _ _ sought _ _ _ ihInner ihRest =>
    obtain ⟨q₁, sought', alike₁⟩ := sought.transfer faithful faithful' alike
    obtain ⟨q₂, inner, alike₂⟩ := ihInner (alike₁.opened frame).entered
    obtain ⟨q₃, rest, alike₃⟩ := ihRest alike₂.leave.closed
    rw [ambientLevel_of_place alike₁.place]
    exact ⟨q₃, .splice sought' inner trivial rest, alike₃⟩

/-- What is seen of a run: its outcome, and the warnings after it. -/
def seen {α : Type} (p : Except Error α × Resolver Memory) : Except Error α × List String :=
  (p.1, p.2.warnings)

theorem map_eq_map_of_transfer {α β γ : Type} {x : Option α} {y : Option β} {f : α → γ}
    {g : β → γ} (there : ∀ a, x = some a → ∃ b, y = some b ∧ f a = g b)
    (back : ∀ b, y = some b → ∃ a, x = some a ∧ g b = f a) : x.map f = y.map g := by
  rcases x with _ | a
  · rcases y with _ | b
    · rfl
    · obtain ⟨a, impossible, -⟩ := back b rfl
      cases impossible
  · obtain ⟨b, rfl, same⟩ := there a rfl
    exact congrArg some same

theorem unrollBy_transfer (faithful : Faithful m load) (faithful' : Faithful m load')
    (alike : Alike m r q) {outcome : Except Error Resolved}
    (run : (unrollBy load nodes).on r = some (outcome, r')) :
    ∃ q', (unrollBy load' nodes).on q = some (outcome, q') ∧ Alike m r' q' := by
  change (walk (embed load r.fuel) nodes).on r = _ at run
  obtain ⟨out, rfl, derived⟩ := Resolves.of_on run
  obtain ⟨q', derived', alike'⟩ := derived.transfer faithful faithful' alike
  have sameFuel : r.fuel = q.fuel := by
    rw [Resolver.fuel, alike.limit, alike.depth, Resolver.fuel]
  rw [sameFuel] at derived'
  exact ⟨q', derived'.on, alike'⟩

/-- What is seen of a run does not depend on how notes are come by, nor on what is known. -/
theorem unrollBy_seen (faithful : Faithful m load) (faithful' : Faithful m load')
    (alike : Alike m r q) (nodes : List Node) :
    ((unrollBy load nodes).on r).map seen = ((unrollBy load' nodes).on q).map seen := by
  refine map_eq_map_of_transfer ?_ ?_
  · rintro ⟨outcome, r'⟩ run
    obtain ⟨q', run', alike'⟩ := unrollBy_transfer faithful faithful' alike run
    exact ⟨_, run', by rw [seen, seen, alike'.warnings]⟩
  · rintro ⟨outcome, q'⟩ run
    obtain ⟨r', run', alike'⟩ := unrollBy_transfer faithful' faithful alike.symm run
    exact ⟨_, run', by rw [seen, seen, alike'.warnings]⟩

/-- A run keeps the documents, and what is known of them right. -/
theorem unroll_agrees (distinct : m.Distinct) (agrees : Agrees m r)
    {outcome : Except Error Resolved} (run : (unroll nodes).on r = some (outcome, r')) :
    Agrees m r' := by
  have faithful : Faithful m Step.load := faithful_load distinct
  obtain ⟨_, -, alike⟩ := unrollBy_transfer faithful faithful ⟨agrees, agrees, rfl⟩ run
  exact alike.left

end Resolver

namespace Export

open Resolver (Agrees Alike)

variable {m : Memory} {α α' β β' : Type} {R : α → α' → Prop} {S : β → β' → Prop}
  {a : Export Memory α} {b : Export Memory α'} {c c' : Cache}

/-! ## Steps of an export -/

/-- Two sessions over the documents of `m` that show the same. -/
structure Beside (m : Memory) (s t : Session Memory) : Prop where
  left : s.store.documents = m.documents
  right : t.store.documents = m.documents
  warnings : s.warnings = t.warnings

/-- Where `a` ends it succeeds, and beside it `b` succeeds too, with a result that `R` relates. -/
def Follows (m : Memory) (a : Export Memory α) (b : Export Memory α') (R : α → α' → Prop) : Prop :=
  ∀ s t outcome s', Beside m s t → a.on s = some (outcome, s') →
    ∃ v w t', outcome = .ok v ∧ b.on t = some (.ok w, t') ∧ R v w ∧ Beside m s' t'

theorem Follows.pure {v : α} {w : α'} (h : R v w) : Follows m (pure v) (pure w) R := by
  intro s t outcome s' beside run
  cases run
  exact ⟨v, w, t, rfl, rfl, h, beside⟩

theorem Follows.bind {f : α → Export Memory β} {g : α' → Export Memory β'}
    (first : Follows m a b R) (next : ∀ v w, R v w → Follows m (f v) (g w) S) :
    Follows m (a >>= f) (b >>= g) S := by
  intro s t outcome s' beside run
  rcases Action.of_on_bind run with ⟨v, s₁, head, rest⟩ | ⟨e, failed, -⟩
  · obtain ⟨v', w, t₁, same, head', related, beside₁⟩ := first _ _ _ _ beside head
    cases same
    obtain ⟨v'', w', t', ended, rest', related', beside'⟩ := next v w related _ _ _ _ beside₁ rest
    exact ⟨v'', w', t', ended, (Action.on_bind_of_ok head').trans rest', related', beside'⟩
  · obtain ⟨_, _, _, impossible, -⟩ := first _ _ _ _ beside failed
    cases impossible

/-- What regions give to the next step: the same blocks, and notes that are known rightly. -/
def SamePart (m : Memory) (p q : α × Cache) : Prop :=
  p.1 = q.1 ∧ m.Coherent p.2 ∧ m.Coherent q.2

theorem follows_region (distinct : m.Distinct) (limit : Option Nat) (frame : Option Frame)
    (nodes : List Node) (known : m.Coherent c) (known' : m.Coherent c') :
    Follows m (region limit frame nodes c) (region limit frame nodes c') (SamePart m) := by
  intro s t outcome s' beside run
  rw [region, resolving_on] at run
  obtain ⟨⟨result, r⟩, inside, same⟩ := Option.map_eq_some_iff.1 run
  cases same
  obtain ⟨out, rfl, -⟩ := Resolver.Resolves.of_on inside
  have faithful : Resolver.Faithful m Resolver.Step.load := Resolver.faithful_load distinct
  have alike : Alike m (resolver s c frame.toList limit) (resolver t c' frame.toList limit) :=
    ⟨⟨beside.left, known⟩, ⟨beside.right, known'⟩, by
      simp only [Resolver.shown, Resolver.place, resolver, beside.warnings]⟩
  obtain ⟨q, inside', alike'⟩ := Resolver.unrollBy_transfer faithful faithful alike inside
  refine ⟨_, (out, q.cache), resolved t q, rfl, ?_,
    ⟨rfl, alike'.left.coherent, alike'.right.coherent⟩,
    ⟨alike'.left.documents, alike'.right.documents, alike'.warnings⟩⟩
  rw [region, resolving_on]
  change Option.map _ ((Resolver.unrollBy Resolver.Step.load nodes).on _) = _
  rw [inside']
  rfl

theorem follows_headingRegion (distinct : m.Distinct) (limit : Option Nat) (h : Option Heading)
    (known : m.Coherent c) (known' : m.Coherent c') :
    Follows m (headingRegion limit h c) (headingRegion limit h c') (SamePart m) := by
  cases h with
  | none => exact .pure ⟨rfl, known, known'⟩
  | some h =>
    refine (follows_region distinct limit _ _ known known').bind ?_
    rintro ⟨part, c₁⟩ ⟨_, c₁'⟩ ⟨same, known₁, known₁'⟩
    cases same
    exact .pure ⟨rfl, known₁, known₁'⟩

/-- The regions of a note, each resolved with notes of its own that are known. -/
def regionsApart (limit : Option Nat) (sections : Sections) (c₁ c₂ c₃ : Cache) :
    Export Memory Regions := do
  let (abstractPart, _) ← headingRegion limit sections.abstractHeading c₁
  let (body, _) ← region limit (sections.bodyHeading.map frameOf) sections.body c₂
  let (appendix, _) ← headingRegion limit sections.appendixHeading c₃
  return ⟨abstractPart, body, appendix⟩

/-- The regions of a note, what is known to a region being made from what the one before knew. -/
def regionsKnowing (limit : Option Nat) (sections : Sections) (c : Cache)
    (body appendix : Cache → Cache) : Export Memory Regions := do
  let (abstractPart, cache) ← headingRegion limit sections.abstractHeading c
  let (body, cache) ← region limit (sections.bodyHeading.map frameOf) sections.body (body cache)
  let (appendix, _) ← headingRegion limit sections.appendixHeading (appendix cache)
  return ⟨abstractPart, body, appendix⟩

theorem regions_eq (limit : Option Nat) (sections : Sections) (c : Cache) :
    regions limit sections c = regionsKnowing limit sections c id id := rfl

theorem regionsApart_eq (limit : Option Nat) (sections : Sections) (c₁ c₂ c₃ : Cache) :
    regionsApart limit sections c₁ c₂ c₃ =
      regionsKnowing limit sections c₁ (fun _ => c₂) (fun _ => c₃) := rfl

/-- What is made of notes that are known rightly are such notes. -/
def KeepsCoherent (m : Memory) (f : Cache → Cache) : Prop := ∀ c, m.Coherent c → m.Coherent (f c)

/-- Whatever is made of what is known, as long as it is right, the regions are the same. -/
theorem follows_regions (distinct : m.Distinct) (limit : Option Nat) (sections : Sections)
    {body body' appendix appendix' : Cache → Cache} (known : m.Coherent c) (known' : m.Coherent c')
    (hb : KeepsCoherent m body) (hb' : KeepsCoherent m body')
    (ha : KeepsCoherent m appendix) (ha' : KeepsCoherent m appendix') :
    Follows m (regionsKnowing limit sections c body appendix)
      (regionsKnowing limit sections c' body' appendix') Eq := by
  refine (follows_headingRegion distinct limit _ known known').bind ?_
  rintro ⟨abstractPart, c₁⟩ ⟨_, c₁'⟩ ⟨same, known₁, known₁'⟩
  cases same
  refine (follows_region distinct limit _ _ (hb _ known₁) (hb' _ known₁')).bind ?_
  rintro ⟨bodyPart, c₂⟩ ⟨_, c₂'⟩ ⟨same, known₂, known₂'⟩
  cases same
  refine (follows_headingRegion distinct limit _ (ha _ known₂) (ha' _ known₂')).bind ?_
  rintro ⟨appendixPart, c₃⟩ ⟨_, c₃'⟩ ⟨same, -, -⟩
  cases same
  exact .pure rfl

/-- The manuscript of a whole note whose regions are resolved each with notes of its own that are
known. -/
def assembleApart (root : Document) (options : ExportOptions) (c₁ c₂ c₃ : Cache) :
    Export Memory Manuscript := do
  let note ← rootNote root none
  let parts ← regionsApart options.maxEmbedDepth (Sections.classify note.body) c₁ c₂ c₃
  return parts.manuscript note.frontMatter

/-- What is seen of a step of an export: its outcome, and the warnings after it. -/
def seen (p : Except Error α × Session Memory) : Except Error α × List String := (p.1, p.2.warnings)

theorem Follows.seen {a b : Export Memory α} (there : Follows m a b Eq) (back : Follows m b a Eq)
    {s : Session Memory} (same : s.store.documents = m.documents) :
    (a.on s).map seen = (b.on s).map seen := by
  have beside : Beside m s s := ⟨same, same, rfl⟩
  refine Resolver.map_eq_map_of_transfer ?_ ?_
  · rintro ⟨outcome, s'⟩ run
    obtain ⟨v, _, t', rfl, run', rfl, beside'⟩ := there _ _ _ _ beside run
    exact ⟨_, run', by rw [Export.seen, Export.seen, beside'.warnings]⟩
  · rintro ⟨outcome, s'⟩ run
    obtain ⟨v, _, t', rfl, run', rfl, beside'⟩ := back _ _ _ _ beside run
    exact ⟨_, run', by rw [Export.seen, Export.seen, beside'.warnings]⟩

theorem regions_seen (distinct : m.Distinct) (limit : Option Nat) (sections : Sections)
    {c₁ c₂ c₃ : Cache} (known : m.Coherent c) (h₁ : m.Coherent c₁) (h₂ : m.Coherent c₂)
    (h₃ : m.Coherent c₃) {s : Session Memory} (same : s.store.documents = m.documents) :
    ((regions limit sections c).on s).map seen =
      ((regionsApart limit sections c₁ c₂ c₃).on s).map seen := by
  have keeps : KeepsCoherent m id := fun _ h => h
  have keeps₂ : KeepsCoherent m fun _ => c₂ := fun _ _ => h₂
  have keeps₃ : KeepsCoherent m fun _ => c₃ := fun _ _ => h₃
  rw [regions_eq, regionsApart_eq]
  exact Follows.seen
    (follows_regions distinct limit sections known h₁ keeps keeps₂ keeps keeps₃)
    (follows_regions distinct limit sections h₁ known keeps₂ keeps keeps₃ keeps) same

theorem bind_pure_seen {β : Type} (a : Export Memory α) (f : α → β) (s : Session Memory) :
    ((a >>= fun x => pure (f x)).on s).map seen =
      ((a.on s).map seen).map fun p => (p.1.map f, p.2) := by
  rw [Action.on_bind]
  rcases a.on s with _ | ⟨_ | _, _⟩ <;> rfl

/-- What is seen of a manuscript is what is seen of its regions. -/
theorem manuscriptOf_seen (root : Document) (note : Note) (options : ExportOptions)
    (s : Session Memory) :
    ((manuscriptOf root note options).on s).map seen =
      (((regions options.maxEmbedDepth (Sections.classify note.body)
        (Cache.empty.add root.basename note)).on s).map seen).map
        fun p => (p.1.map fun parts => parts.manuscript note.frontMatter, p.2) := by
  rw [manuscriptOf, bind_pure_seen]

/-- What regions learn from each other does not show in a manuscript. -/
theorem assemble_seen {s : Session Memory} (distinct : s.store.Distinct) {root : Document}
    (stored : s.store.Holds root) (options : ExportOptions) {c₁ c₂ c₃ : Cache}
    (h₁ : s.store.Coherent c₁) (h₂ : s.store.Coherent c₂) (h₃ : s.store.Coherent c₃) :
    ((assemble root none options).on s).map seen =
      ((assembleApart root options c₁ c₂ c₃).on s).map seen := by
  rw [assemble_eq, assembleApart]
  have first := rootNote_on root none s
  rcases parsed : (rootOutcome root none s).1.bind Note.parse with e | note
  · rw [parsed] at first
    rw [Action.on_bind_of_error first, Action.on_bind_of_error first]
  · rw [parsed] at first
    have known : s.store.Coherent (Cache.empty.add root.basename note) :=
      Memory.coherent_of_holds stored parsed
    rw [Action.on_bind_of_ok first, Action.on_bind_of_ok first, manuscriptOf_seen, bind_pure_seen]
    exact congrArg _ (regions_seen distinct _ _ known h₁ h₂ h₃ rfl)

/-- Where base names are distinct, what is seen of a run is what would be seen if every note were
read and parsed afresh at every embed, and what is known of notes stays right. The regions of a
stored note are the same, and the manuscript with them, as if each region had notes of its own that
are known. -/
theorem caching_invisible {m : Memory} (distinct : m.Distinct) :
    (∀ (r : Resolver Memory) (nodes : List Node), r.store = m → m.Coherent r.cache →
      ((Resolver.unroll nodes).on r).map Resolver.seen =
        ((Resolver.unrollBy Resolver.Step.readNote nodes).on r).map Resolver.seen ∧
      ∀ outcome r', (Resolver.unroll nodes).on r = some (outcome, r') →
        r'.store.Coherent r'.cache) ∧
    ∀ (s : Session Memory) (root : Document) (options : ExportOptions) (c₁ c₂ c₃ : Cache),
      s.store = m → m.Holds root → m.Coherent c₁ → m.Coherent c₂ → m.Coherent c₃ →
      (∀ note, (rootOutcome root none s).1.bind Note.parse = .ok note →
        ((regions options.maxEmbedDepth (Sections.classify note.body)
            (Cache.empty.add root.basename note)).on (rootOutcome root none s).2).map seen =
          ((regionsApart options.maxEmbedDepth (Sections.classify note.body) c₁ c₂ c₃).on
            (rootOutcome root none s).2).map seen) ∧
      ((assemble root none options).on s).map seen =
        ((assembleApart root options c₁ c₂ c₃).on s).map seen := by
  refine ⟨?_, ?_⟩
  · rintro r nodes rfl coherent
    have agrees : Agrees r.store r := ⟨rfl, coherent⟩
    refine ⟨?_, ?_⟩
    · exact Resolver.unrollBy_seen (Resolver.faithful_load distinct)
        (Resolver.faithful_readNote r.store) ⟨agrees, agrees, rfl⟩ nodes
    · intro outcome r' run
      have agrees' := Resolver.unroll_agrees distinct agrees run
      exact agrees'.coherent.congr agrees'.documents.symm
  · rintro s root options c₁ c₂ c₃ rfl stored h₁ h₂ h₃
    refine ⟨?_, ?_⟩
    · intro note parsed
      exact regions_seen distinct _ _ (Memory.coherent_of_holds stored parsed) h₁ h₂ h₃ rfl
    · exact assemble_seen distinct stored options h₁ h₂ h₃

/-- Two notes; one has embeds of the other and of a section of it. -/
def embeddedTwice : Memory :=
  ⟨[(⟨"long.md"⟩, "![[part]]\n\n# Again\n![[part#Part]]\n"), (⟨"part.md"⟩, "# Part\ntext\n")],
    [], []⟩

theorem caching_invisible_embeddedTwice :
    ((Resolver.unroll [.embed ⟨"part", none, none⟩]).on
        (Resolver.initial embeddedTwice .empty none)).map Resolver.seen =
      ((Resolver.unrollBy Resolver.Step.readNote [.embed ⟨"part", none, none⟩]).on
        (Resolver.initial embeddedTwice .empty none)).map Resolver.seen ∧
    (assemble ⟨"long.md"⟩ none .standard).succeeds ⟨embeddedTwice, [], [], .open_ none⟩ = true ∧
    ((assemble ⟨"long.md"⟩ none .standard).on ⟨embeddedTwice, [], [], .open_ none⟩).map seen =
      ((assembleApart ⟨"long.md"⟩ .standard .empty .empty .empty).on
        ⟨embeddedTwice, [], [], .open_ none⟩).map seen := by
  have distinct : embeddedTwice.Distinct := by decide +kernel
  have stored : embeddedTwice.Holds ⟨"long.md"⟩ := by decide +kernel
  have known := Memory.coherent_empty embeddedTwice
  obtain ⟨runs, exports⟩ := caching_invisible distinct
  refine ⟨(runs _ _ rfl known).1, by decide +kernel, ?_⟩
  exact (exports _ _ _ _ _ _ rfl stored known known known).2

end Export

end Longform
