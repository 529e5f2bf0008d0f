import Longform.Proofs.Assembly
import Longform.Proofs.KnownNotes
import Longform.Store.Memory

/-!
# Headings descend through a whole export

Levels are changed in three places: the blocks of a "Body" heading move up by one
level, a region begins below the heading that it belongs to, and what an embed
stands for moves under the heading that the embed stands below. All three keep
`Node.Nests`.

* `Resolves.descends`: a run that begins with descending blocks ends with such,
  and every splice on the way moves only headings deeper than its base.
* `nests_classify`: so do the regions of a note, and `lowersExactly_body` says
  that moving up cuts off nothing.
* `assemble_descends` puts these together for an export.
-/

namespace Longform

open Node (Nests NestsOne NestsItems levels)

/-! ## Notes that are known -/

/-- Every note of the cache has descending headings. -/
def Cache.Nested (c : Cache) : Prop :=
  ∀ basename note, c.find? basename = some note → Nests 0 note.body

theorem Note.everyParsed_nests : EveryParsed fun note => Nests 0 note.body :=
  fun _ _ parsed => nests_body parsed

theorem Cache.nested_empty : Cache.empty.Nested := every_empty _

theorem Cache.Nested.add {c : Cache} {note : Note} (h : c.Nested) (nested : Nests 0 note.body)
    (basename : String) : (c.add basename note).Nested :=
  Every.add h nested basename

theorem nests_of_bind_parse {x : Except Error String} {note : Note}
    (parsed : x.bind Note.parse = .ok note) : Nests 0 note.body := by
  obtain ⟨text, parsed⟩ := Note.exists_parse_of_bind parsed
  exact Note.nests_body parsed

namespace Resolver

variable {σ : Type} [Store σ] {fuel level : Nat} {r r' : Resolver σ} {nodes : List Node}
  {out : Resolved}

/-! ## The resolver -/

/-- Every heading that a splice moves is deeper than the heading it is moved from under. -/
def Deepens : AtSplice σ := fun _ frame nodes => ∀ level ∈ levels nodes, frame.level < level

/-- The blocks that take the place of an embed have descending headings, wherever they are put. -/
def Target.Nested : Target → Prop
  | .done resolved => ∀ level, Nests level resolved.nodes
  | .content frame nodes => Nests frame.level nodes

theorem nested_empty : Target.Nested (.done .empty) := fun level => Node.nests_nil level

theorem nested_of_load {d : Document} {outcome : Except Error Note}
    (run : (Step.load d).on r = some (outcome, r')) (known : r.cache.Nested) :
    r'.cache.Nested ∧ ∀ note, outcome = .ok note → Nests 0 note.body :=
  every_of_load Note.everyParsed_nests run known

theorem nests_of_target? {link : Link} {d : Document} {note : Note} {frame : Frame}
    (nested : Nests 0 note.body) (aim : target? link d note = some (frame, nodes)) :
    Nests frame.level nodes := by
  rw [target?] at aim
  split at aim
  · cases aim
    exact nested
  · obtain ⟨h, found, same⟩ := Option.map_eq_some_iff.1 aim
    cases same
    exact nested.of_find found

/-- A search keeps the known notes nested, and what it finds is nested. -/
theorem Seeks.nested {link : Link} {t : Target} (sought : Seeks Step.load r link t r')
    (known : r.cache.Nested) : r'.cache.Nested ∧ t.Nested := by
  cases sought with
  | figure _ _ =>
    refine ⟨known, fun level => ?_⟩
    rw [Node.nests_cons, NestsOne]
    exact ⟨trivial, Node.nests_nil level⟩
  | noImage _ _ => exact ⟨known, nested_empty⟩
  | tooDeep _ _ => exact ⟨known, nested_empty⟩
  | missing _ _ _ => exact ⟨known, nested_empty⟩
  | @unloadable d warnings store e r₁ _ _ _ loaded =>
    have after := nested_of_load loaded known
    exact ⟨after.1, nested_empty⟩
  | @noHeading d warnings store note r₁ _ _ _ loaded _ =>
    have after := nested_of_load loaded known
    exact ⟨after.1, nested_empty⟩
  | @content d warnings store note _ frame nodes _ _ _ loaded aim =>
    have after := nested_of_load loaded known
    exact ⟨after.1, nests_of_target? (after.2 note rfl) aim⟩

theorem Resolves.nestsKnown {P : AtSplice σ}
    (h : Resolves Step.load P fuel r nodes out r') (known : r.cache.Nested) : r'.cache.Nested :=
  h.keeps (fun _ _ _ known => known) (fun sought known => (sought.nested known).1) known

omit [Store σ] in
theorem below_of_place {r₁ : Resolver σ} (below : level ≤ r.ambientLevel)
    (h : r₁.place = r.place) : level ≤ r₁.ambientLevel := by
  rw [ambientLevel_of_place h]
  exact below

/-- Descending blocks are resolved to descending blocks when they stand no higher than the innermost
open heading, and nothing that is moved on the way loses a level. -/
theorem Resolves.descends (h : Resolves Step.load Anyhow fuel r nodes out r')
    (known : r.cache.Nested) (below : level ≤ r.ambientLevel) (nests : Nests level nodes) :
    Resolves Step.load Deepens fuel r nodes out r' ∧ Nests level out.nodes := by
  induction h generalizing level with
  | nil => exact ⟨.nil, Node.nests_nil level⟩
  | @heading fuel l title children nodes inner rest r r₁ r₂ inside following ihInner ihRest =>
    obtain ⟨⟨lt, nestsChildren⟩, nestsRest⟩ := (Node.nests_heading ..).1 nests
    have here := below_of_place below (place_closed (inside.place staysAt_load))
    obtain ⟨exactInner, nestsInner⟩ := ihInner known (Nat.le_refl l) nestsChildren
    obtain ⟨exactRest, nestsRest⟩ :=
      ihRest (inside.nestsKnown known) here nestsRest
    refine ⟨.heading exactInner exactRest, ?_⟩
    exact (Node.nests_heading ..).2 ⟨⟨lt, nestsInner⟩, nestsRest⟩
  | leaf isLeaf _ ih =>
    obtain ⟨first, nestsRest⟩ := (Node.nests_cons ..).1 nests
    obtain ⟨exactRest, nestsRest⟩ := ih known below nestsRest
    exact ⟨.leaf isLeaf exactRest, (Node.nests_cons ..).2 ⟨first, nestsRest⟩⟩
  | noItems _ ih =>
    obtain ⟨first, nestsRest⟩ := (Node.nests_cons ..).1 nests
    obtain ⟨exactRest, nestsRest⟩ := ih known below nestsRest
    exact ⟨.noItems exactRest, (Node.nests_cons ..).2 ⟨first, nestsRest⟩⟩
  | @item _ kind item items items' nodes nodes' _ _ r r₁ r₂ inside _ ihItem ihRest =>
    rw [Node.nests_cons, NestsOne, NestsItems] at nests
    obtain ⟨⟨nestsItem, nestsItems⟩, nestsRest⟩ := nests
    have here := below_of_place below (inside.place staysAt_load)
    obtain ⟨exactItem, nestsItem⟩ := ihItem known (Nat.zero_le _) nestsItem
    obtain ⟨exactRest, nestsRest⟩ :=
      ihRest (inside.nestsKnown known) here
        ((Node.nests_cons ..).2 ⟨by rw [NestsOne]; exact nestsItems, nestsRest⟩)
    refine ⟨.item exactItem exactRest, ?_⟩
    rw [Node.nests_cons, NestsOne] at nestsRest
    rw [Node.nests_cons, NestsOne, NestsItems]
    exact ⟨⟨nestsItem, nestsRest.1⟩, nestsRest.2⟩
  | done sought _ ih =>
    obtain ⟨known₁, nested⟩ := sought.nested known
    have here := below_of_place below (sought.place staysAt_load)
    obtain ⟨exactRest, nestsRest⟩ :=
      ih known₁ here ((Node.nests_cons ..).1 nests).2
    exact ⟨.done sought exactRest, (Node.nests_append ..).2 ⟨nested level, nestsRest⟩⟩
  | @splice fuel link frame content nodes inner rest r r₁ r₂ r₃ sought inside _ _ ihInner ihRest =>
    obtain ⟨known₁, nested⟩ := sought.nested known
    have here := below_of_place below (sought.place staysAt_load)
    have after := below_of_place here (place_closed (place_left (inside.place staysAt_load)))
    obtain ⟨exactInner, nestsInner⟩ := ihInner known₁ (Nat.le_refl frame.level) nested
    obtain ⟨exactRest, nestsRest⟩ :=
      ihRest (inside.nestsKnown known₁) after
        ((Node.nests_cons ..).1 nests).2
    -- What was resolved descends below its own base, so it can be moved without loss, and below the
    -- open heading it descends below `level` all the more.
    refine ⟨.splice sought exactInner nestsInner.lt_of_mem_levels exactRest, ?_⟩
    have moved := (nestsInner.rebase r₁.ambientLevel).mono here
    exact (Node.nests_append ..).2 ⟨moved, nestsRest⟩

end Resolver

/-! ## The regions of a note -/

namespace Sections

variable {wanted : String} {n : Node} {h : Heading} {nodes : List Node}

theorem eq_of_titled? (titled : titled? wanted n = some h) : n = h.toNode := by
  cases n with
  | heading level title children =>
    rw [titled?] at titled
    split at titled
    · cases titled
      rfl
    · cases titled
  | _ => cases titled

theorem nests_of_titled? (nests : NestsOne 0 n) (titled : titled? wanted n = some h) :
    1 ≤ h.level ∧ Nests h.level h.children := by
  rw [eq_of_titled? titled, Heading.toNode, NestsOne] at nests
  exact nests

theorem nests_of_lastTitled? (nests : Nests 0 nodes) (last : lastTitled? wanted nodes = some h) :
    Nests h.level h.children := by
  have mem := List.mem_of_getLast? last
  obtain ⟨n, inNodes, titled⟩ := List.mem_filterMap.1 mem
  exact (nests_of_titled? (Node.nests_iff_forall.1 nests n inNodes) titled).2

/-- Nothing that moves up for a "Body" heading, the heading itself included, is at level zero. -/
def LowersExactly (nodes : List Node) : Prop :=
  ∀ n ∈ nodes, ∀ h, titled? "body" n = some h → 1 ≤ h.level ∧ ∀ l ∈ levels h.children, 1 ≤ l

theorem lowersExactly_of_nests (nests : Nests 0 nodes) : LowersExactly nodes := by
  intro n mem h titled
  obtain ⟨positive, inner⟩ := nests_of_titled? (Node.nests_iff_forall.1 nests n mem) titled
  refine ⟨positive, fun l among => ?_⟩
  have deeper := inner.lt_of_mem_levels l among
  omega

theorem nests_openBody (nests : NestsOne 0 n) : Nests 0 (openBody n) := by
  rw [openBody]
  split
  · next h titled =>
    obtain ⟨positive, inner⟩ := nests_of_titled? nests titled
    exact (inner.mono positive).lower
  · rw [Node.nests_cons]
    exact ⟨nests, Node.nests_nil 0⟩

theorem nests_withoutTitled (nests : Nests 0 nodes) (wanted : String) :
    Nests 0 (withoutTitled wanted nodes) := by
  rw [Node.nests_iff_forall] at nests ⊢
  intro n mem
  exact nests n (List.mem_filter.1 mem).1

theorem nests_classify_body (nests : Nests 0 nodes) : Nests 0 (classify nodes).body := by
  have rest := nests_withoutTitled (nests_withoutTitled nests "abstract") "appendix"
  rw [Node.nests_iff_forall] at rest ⊢
  intro n mem
  obtain ⟨block, inRest, among⟩ := List.mem_flatMap.1 mem
  exact Node.nests_iff_forall.1 (nests_openBody (rest block inRest)) n among

end Sections

/-! ## Exports -/

namespace Export

open Resolver (Anyhow Deepens)

variable {σ : Type} [Store σ] {limit : Option Nat} {nodes : List Node} {s s' : Session σ}
  {cache cache' : Cache}

theorem ResolvesRegion.descends {frame : Option Frame} {out : Resolved}
    (h : ResolvesRegion Anyhow limit frame nodes s cache out s' cache') (known : cache.Nested)
    (nests : Nests 0 nodes) :
    ResolvesRegion Deepens limit frame nodes s cache out s' cache' ∧ cache'.Nested ∧
      Nests 0 out.nodes := by
  cases h with
  | intro derived =>
    obtain ⟨exactly, nestsOut⟩ := derived.descends known (Nat.zero_le _) nests
    exact ⟨.intro exactly, derived.nestsKnown known, nestsOut⟩

theorem ResolvesHeading.descends {h : Option Heading} {part : Option Resolved}
    (derived : ResolvesHeading Anyhow limit s cache h part s' cache') (known : cache.Nested)
    (nests : ∀ heading, h = some heading → Nests heading.level heading.children) :
    ResolvesHeading Deepens limit s cache h part s' cache' ∧ cache'.Nested ∧
      ∀ out ∈ part.toList, Nests 0 out.nodes := by
  cases derived with
  | absent => exact ⟨.absent, known, nofun⟩
  | present inside =>
    have below := (nests _ rfl).mono (Nat.zero_le _)
    obtain ⟨exactly, known', nestsOut⟩ := inside.descends known below
    refine ⟨.present exactly, known', fun out mem => ?_⟩
    rw [Option.toList_some, List.mem_singleton] at mem
    rw [mem]
    exact nestsOut

/-- The regions that a note has, in the order of an export. -/
def allRegions (parts : Regions) : List Resolved :=
  parts.abstractPart.toList ++ parts.body :: parts.appendix.toList

section

variable {P : Resolver.AtSplice σ} {I : Cache → Prop} {J : List Node → Prop} {Q : Resolved → Prop}
  {sections : Sections} {parts : Regions}

/-- A region that begins with blocks as `J` says, and with notes known as `I` says, ends with blocks
as `Q` says and with such notes known. -/
structure RegionsKeep (P : Resolver.AtSplice σ) (limit : Option Nat) (I : Cache → Prop)
    (J : List Node → Prop) (Q : Resolved → Prop) : Prop where
  region : ∀ {frame nodes s cache out s' cache'},
    ResolvesRegion P limit frame nodes s cache out s' cache' → I cache → J nodes →
      I cache' ∧ Q out

theorem RegionsKeep.heading (keep : RegionsKeep P limit I J Q) {h : Option Heading}
    {part : Option Resolved} (derived : ResolvesHeading P limit s cache h part s' cache')
    (known : I cache) (owned : ∀ heading, h = some heading → J heading.children) :
    I cache' ∧ ∀ out ∈ part.toList, Q out := by
  cases derived with
  | absent => exact ⟨known, nofun⟩
  | present inside =>
    obtain ⟨known', holds⟩ := keep.region inside known (owned _ rfl)
    refine ⟨known', fun out mem => ?_⟩
    rw [Option.toList_some, List.mem_singleton] at mem
    rw [mem]
    exact holds

theorem RegionsKeep.regions (keep : RegionsKeep P limit I J Q)
    (derived : ResolvesRegions P limit sections s cache parts s') (known : I cache)
    (abstract : ∀ heading, sections.abstractHeading = some heading → J heading.children)
    (body : J sections.body)
    (appendix : ∀ heading, sections.appendixHeading = some heading → J heading.children) :
    ∀ part ∈ allRegions parts, Q part := by
  cases derived with
  | intro first second third =>
    obtain ⟨known₁, inAbstract⟩ := keep.heading first known abstract
    obtain ⟨known₂, inBody⟩ := keep.region second known₁ body
    obtain ⟨-, inAppendix⟩ := keep.heading third known₂ appendix
    intro part mem
    rcases List.mem_append.1 mem with mem | mem
    · exact inAbstract part mem
    · rcases List.mem_cons.1 mem with rfl | mem
      · exact inBody
      · exact inAppendix part mem

end

theorem ResolvesRegions.descends {parts : Regions}
    (h : ResolvesRegions Anyhow limit (Sections.classify nodes) s cache parts s')
    (known : cache.Nested) (nests : Nests 0 nodes) :
    ResolvesRegions Deepens limit (Sections.classify nodes) s cache parts s' ∧
      ∀ part ∈ allRegions parts, Nests 0 part.nodes := by
  cases h with
  | intro first second third =>
    obtain ⟨first, known₁, nestsAbstract⟩ := first.descends known
      fun _ last => Sections.nests_of_lastTitled? nests last
    obtain ⟨second, known₂, nestsBody⟩ :=
      second.descends known₁ (Sections.nests_classify_body nests)
    obtain ⟨third, -, nestsAppendix⟩ := third.descends known₂
      fun _ last => Sections.nests_of_lastTitled? nests last
    refine ⟨.intro first second third, fun part mem => ?_⟩
    rcases List.mem_append.1 mem with mem | mem
    · exact nestsAbstract part mem
    · rcases List.mem_cons.1 mem with rfl | mem
      · exact nestsBody
      · exact nestsAppendix part mem

/-- An export that succeeds renders regions whose headings descend and have levels of at least one.
On the way there every splice moves only headings deeper than the one they are moved from under, and
what moves up for a "Body" heading is not at level zero, so that no level is cut off. -/
theorem assemble_descends {root : Document} {selection : Option String} {options : ExportOptions}
    {m : Manuscript} (run : (assemble root selection options).on s = some (.ok m, s')) :
    ∃ note parts,
      (rootOutcome root selection s).1.bind Note.parse = .ok note ∧
      m = parts.manuscript note.frontMatter ∧
      ResolvesRegions Deepens options.maxEmbedDepth (Sections.classify note.body)
        (rootOutcome root selection s).2 (Cache.empty.add root.basename note) parts s' ∧
      Sections.LowersExactly note.body ∧
      ∀ part ∈ allRegions parts, Nests 0 part.nodes := by
  rcases parsed : (rootOutcome root selection s).1.bind Note.parse with e | note
  · rw [assemble_on_error parsed] at run
    cases run
  · rw [assemble_on_ok parsed] at run
    obtain ⟨⟨outcome, s₁⟩, inside, same⟩ := Option.map_eq_some_iff.1 run
    obtain ⟨parts, rfl, derived⟩ := ResolvesRegions.of_on inside
    cases same
    have nests := nests_of_bind_parse parsed
    obtain ⟨exactly, nestsParts⟩ := derived.descends (Cache.nested_empty.add nests _) nests
    exact ⟨note, parts, rfl, rfl, exactly, Sections.lowersExactly_of_nests nests, nestsParts⟩

/-- Two notes; the body of one is a heading below "Body" with an embed of the other. -/
def bodyAndPart : Session Memory where
  store := ⟨[(⟨"body.md"⟩, "# Body\n## First\n![[part]]\n"), (⟨"part.md"⟩, "# Part\ntext\n")],
    [], []⟩
  warnings := []
  notices := []
  clipboard := .open_ none

theorem assemble_descends_bodyAndPart :
    ∃ m s', (assemble ⟨"body.md"⟩ none .standard).on bodyAndPart = some (.ok m, s') ∧
      ∃ (note : Note) (parts : Regions), m = parts.manuscript note.frontMatter ∧
        Sections.LowersExactly note.body ∧ ∀ part ∈ allRegions parts, Nests 0 part.nodes := by
  obtain ⟨m, s', run⟩ := Action.exists_of_succeeds
    (show (assemble ⟨"body.md"⟩ none .standard).succeeds bodyAndPart = true by decide +kernel)
  obtain ⟨note, parts, -, same, -, exactly, nests⟩ := assemble_descends run
  exact ⟨m, s', run, note, parts, same, exactly, nests⟩

end Export

end Longform
