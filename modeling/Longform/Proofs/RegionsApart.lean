import Longform.Proofs.Failures
import Longform.Proofs.Reads
import Longform.Proofs.Selection

/-!
# Regions kept apart

The regions of a note share the notes that are known, but as long as no embed
names the note that is exported, all that one region leaves to the next is what
is stored anyway. So the other regions do not show what the abstract or the
appendix holds.

* `Sections.SameBut`: blocks that differ in what a region owns, and
  `Sections.classify_of_sameBut` for the other regions.
* `Export.regions_do_not_leak`: two exports whose root texts differ only there give
  the other two regions alike.
-/

namespace Longform

/-! ## Texts that differ in one region -/

namespace Sections

variable {wanted other : String} {nodes nodes' : List Node} {n n' : Node}

/-- A block stays the same, but a heading with the given region title may own something else. -/
inductive SameBut (wanted : String) : Node → Node → Prop
  | same {n : Node} : SameBut wanted n n
  | owned {level : Nat} {title : List Inline} {children children' : List Node} :
    regionTitle title = wanted →
    SameBut wanted (.heading level title children) (.heading level title children')

theorem SameBut.isNone_titled? (h : SameBut wanted n n') (other : String) :
    (titled? other n).isNone = (titled? other n').isNone := by
  cases h with
  | same => rfl
  | owned _ =>
    rw [titled?, titled?]
    split <;> rfl

/-- A heading of another region is the same. -/
theorem SameBut.titled? (h : SameBut wanted n n') (ne : wanted ≠ other) :
    titled? other n = titled? other n' := by
  cases h with
  | same => rfl
  | owned isWanted =>
    have isOther : ∀ {title}, regionTitle title = wanted → regionTitle title ≠ other := by
      rintro title rfl
      exact ne
    rw [Sections.titled?, Sections.titled?, if_neg (isOther isWanted), if_neg (isOther isWanted)]

/-- A block that is no heading with the title is the same. -/
theorem SameBut.eq_of_isNone (h : SameBut wanted n n') (none : (Sections.titled? wanted n).isNone) :
    n = n' := by
  cases h with
  | same => rfl
  | owned isWanted =>
    rw [Sections.titled?, if_pos isWanted] at none
    cases none

theorem withoutTitled_of_sameBut (h : nodes.Forall₂ (SameBut wanted) nodes') :
    withoutTitled wanted nodes = withoutTitled wanted nodes' := by
  induction h with
  | nil => rfl
  | cons first _ ih =>
    rw [withoutTitled, withoutTitled, List.filter_cons, List.filter_cons,
      ← first.isNone_titled? wanted]
    split
    · next none => rw [first.eq_of_isNone none, ← withoutTitled, ← withoutTitled, ih]
    · exact ih

theorem lastTitled?_of_sameBut (other : String) (h : nodes.Forall₂ (SameBut wanted) nodes')
    (ne : wanted ≠ other) :
    lastTitled? other nodes = lastTitled? other nodes' := by
  have same : nodes.filterMap (titled? other) = nodes'.filterMap (titled? other) := by
    induction h with
    | nil => rfl
    | cons first _ ih => rw [List.filterMap_cons, List.filterMap_cons, first.titled? ne, ih]
  rw [lastTitled?, lastTitled?, same]

theorem withoutTitled_comm (wanted other : String) (nodes : List Node) :
    withoutTitled wanted (withoutTitled other nodes) =
      withoutTitled other (withoutTitled wanted nodes) :=
  List.filter_comm ..

/-- The body is the same, and so is the other region. -/
theorem classify_of_sameBut_abstract (h : nodes.Forall₂ (SameBut "abstract") nodes') :
    (classify nodes').bodyHeading = (classify nodes).bodyHeading ∧
      (classify nodes').body = (classify nodes).body ∧
      (classify nodes').appendixHeading = (classify nodes).appendixHeading := by
  have rest := withoutTitled_of_sameBut h
  have appendix := lastTitled?_of_sameBut "appendix" h (by decide)
  simp only [classify, rest, appendix, and_self]

theorem classify_of_sameBut_appendix (h : nodes.Forall₂ (SameBut "appendix") nodes') :
    (classify nodes').bodyHeading = (classify nodes).bodyHeading ∧
      (classify nodes').body = (classify nodes).body ∧
      (classify nodes').abstractHeading = (classify nodes).abstractHeading := by
  have rest : withoutTitled "appendix" (withoutTitled "abstract" nodes) =
      withoutTitled "appendix" (withoutTitled "abstract" nodes') := by
    rw [withoutTitled_comm, withoutTitled_of_sameBut h, withoutTitled_comm]
  have abstractPart := lastTitled?_of_sameBut "abstract" h (by decide)
  simp only [classify, rest, abstractPart, and_self]

end Sections

/-! ## Vaults that differ in one text -/

namespace Memory

variable {m m' : Memory} {root d : Document}

/-- The same documents, with the same text in each of them but `root`. -/
structure SameBut (root : Document) (m m' : Memory) : Prop where
  titles : m'.titles = m.titles
  texts : ∀ d, same root d = false → m'.get? d = m.get? d

/-- Whatever two texts the root may have. -/
theorem sameBut_replacing (m : Memory) (root : Document) (text text' : String) :
    SameBut root (m.replacing root text) (m.replacing root text') := by
  refine ⟨(titles_replacing _ _ _).trans (titles_replacing _ _ _).symm, fun d other => ?_⟩
  rw [get?_replacing, get?_replacing, other]
  rfl

/-- A note of another name is the same. -/
theorem SameBut.noteAt (h : SameBut root m m') (other : d.basename ≠ root.basename) :
    m'.noteAt d = m.noteAt d := by
  have apart : same root d = false :=
    eq_false_of_ne_true fun same => other (basename_of_same same).symm
  rw [Memory.noteAt, Memory.noteAt, read, read, h.texts d apart]

end Memory

namespace Export

open Resolver (Anyhow Offers Abreast Meets Stable Step stable_offers)

variable {m : Memory} {given : Document → Except Error Note} {D : Document → Prop}
  {limit : Option Nat} {sections sections' : Sections} {s s' t t' : Session Memory}
  {c c' d d' : Cache} {frame : Option Frame} {h : Option Heading} {nodes : List Node}
  {parts parts' : Regions} {root : Document} {selection selection' : Option String}
  {options : ExportOptions} {note note' : Note}

/-! ## Two exports, region by region -/

theorem ResolvesRegion.unique {out out' : Resolved}
    (left : ResolvesRegion Anyhow limit frame nodes s c out t d)
    (right : ResolvesRegion Anyhow limit frame nodes s c out' t' d') :
    out = out' ∧ t = t' ∧ d = d' := by
  cases left with
  | intro run =>
    cases right with
    | intro run' =>
      obtain ⟨rfl, rfl⟩ := run.unique run'
      exact ⟨rfl, rfl, rfl⟩

theorem ResolvesHeading.unique {part part' : Option Resolved}
    (left : ResolvesHeading Anyhow limit s c h part t d)
    (right : ResolvesHeading Anyhow limit s c h part' t' d') :
    part = part' ∧ t = t' ∧ d = d' := by
  cases left with
  | absent =>
    cases right
    exact ⟨rfl, rfl, rfl⟩
  | present region =>
    cases right with
    | present region' =>
      obtain ⟨rfl, rfl, rfl⟩ := region.unique region'
      exact ⟨rfl, rfl, rfl⟩

/-- The regions that begin as described meet only embeds of notes that `D` is about. -/
def MeetsOnly (m : Memory) (D : Document → Prop) (limit : Option Nat) (sections : Sections)
    (s : Session Memory) (c : Cache) : Prop :=
  ∀ {r nodes}, Begins limit sections s c r nodes → ∀ q link, Meets Step.load r nodes q link →
    q.reachedLimit? = none → ∀ e, m.noteNamed? link.address = some e → D e

section TwoRuns

variable (distinct : m.Distinct)
  (derived : ResolvesRegions Anyhow limit sections s c parts t)
  (derived' : ResolvesRegions Anyhow limit sections' s' c' parts' t')
  (left : Offers m given D (resolver s c [] limit))
  (right : Offers m given D (resolver s' c' [] limit))
  (met : MeetsOnly m D limit sections s c)
  (bodyHeading : sections'.bodyHeading = sections.bodyHeading)
  (body : sections'.body = sections.body)

include distinct derived derived' left right met bodyHeading body

/-- What the abstract holds does not show in the regions after it. -/
theorem ResolvesRegions.after_abstract
    (appendix : sections'.appendixHeading = sections.appendixHeading) :
    parts'.body = parts.body ∧ parts'.appendix = parts.appendix := by
  have stable : Stable Step.load (fun _ _ => True) (Offers m given D) := stable_offers distinct _
  cases derived with
  | @intro _ _ _ s₁ _ _ c₁ _ _ first second third =>
    cases derived' with
    | @intro _ _ _ s₁' _ _ c₁' _ _ first' second' third' =>
      -- Each abstract has an end of its own, after which the notes are held for the same again.
      have left₁ := first.keeps stable (fun _ _ _ _ _ => trivial) left
      have right₁ := first'.keeps stable (fun _ _ _ _ _ => trivial) right
      have beside₁ : Abreast m given D s₁.warnings s₁'.warnings (resolver s₁ c₁ [] none)
          (resolver s₁' c₁' [] none) :=
        ⟨left₁.of_same rfl rfl, right₁.of_same rfl rfl, [], (List.append_nil _).symm,
          (List.append_nil _).symm⟩
      obtain ⟨_, _, again, beside₂⟩ := second.abreast distinct beside₁ (met (.body first))
      rw [bodyHeading, body] at second'
      obtain ⟨rfl, rfl, rfl⟩ := again.unique second'
      obtain ⟨_, _, again, -⟩ := third.abreast distinct beside₂
        fun _ same => met (.appendix first second same)
      rw [appendix] at third'
      obtain ⟨rfl, -, -⟩ := again.unique third'
      exact ⟨rfl, rfl⟩

/-- What the appendix holds does not show in the regions before it. -/
theorem ResolvesRegions.before_appendix
    (abstractPart : sections'.abstractHeading = sections.abstractHeading) :
    parts'.abstractPart = parts.abstractPart ∧ parts'.body = parts.body := by
  have beside : Abreast m given D s.warnings s'.warnings (resolver s c [] none)
      (resolver s' c' [] none) :=
    ⟨left.of_same rfl rfl, right.of_same rfl rfl, [], (List.append_nil _).symm,
      (List.append_nil _).symm⟩
  cases derived with
  | intro first second _ =>
    cases derived' with
    | intro first' second' _ =>
      obtain ⟨_, _, again, beside₁⟩ := first.abreast distinct beside
        fun _ same => met (.abstractPart same)
      rw [abstractPart] at first'
      obtain ⟨rfl, rfl, rfl⟩ := again.unique first'
      obtain ⟨_, _, again, -⟩ := second.abreast distinct beside₁ (met (.body first))
      rw [bodyHeading, body] at second'
      obtain ⟨rfl, -, -⟩ := again.unique second'
      exact ⟨rfl, rfl⟩

end TwoRuns

/-! ## Exports -/

/-- Before the first region nothing is known but the root, so that a note of any other name is held
for what is stored. -/
theorem offers_start (titles : s.store.titles = m.titles)
    (stored : ∀ d : Document, d.basename ≠ root.basename → s.store.noteAt d = m.noteAt d)
    (note : Note) (limit : Option Nat) :
    Offers m m.noteAt (fun d => d.basename ≠ root.basename)
      (resolver s (Cache.empty.add root.basename note) [] limit) := by
  refine ⟨titles, fun d _ other => ?_⟩
  have unknown : (Cache.empty.add root.basename note).find? d.basename = none := by
    rw [Cache.find?_add, if_neg other]
    rfl
  exact (Resolver.held_of_unknown unknown).trans (stored d other)

/-- The manuscript `m` is made of the regions `parts` of the note that is exported. -/
def MadeOf (root : Document) (selection : Option String) (options : ExportOptions)
    (s : Session Memory) (m : Manuscript) (parts : Regions) : Prop :=
  ∃ note t, (rootOutcome root selection s).1.bind Note.parse = .ok note ∧
    (regions options.maxEmbedDepth (Sections.classify note.body)
      (Cache.empty.add root.basename note)).on (rootOutcome root selection s).2 =
        some (.ok parts, t) ∧
    m = parts.manuscript note.frontMatter

/-- Where base names are distinct and no embed that an export comes to names a note called like the
root, what the abstract holds does not show in the body and the appendix, nor what the appendix
holds in the abstract and the body: two texts of the root that differ only there, be they stored or
selected, give the same other regions with the same references, if both are exported. Under a limit
they are. -/
theorem regions_do_not_leak (distinct : s.store.Distinct)
    (beside : Memory.SameBut root s.store s'.store)
    (parsed : (rootOutcome root selection s).1.bind Note.parse = .ok note)
    (parsed' : (rootOutcome root selection' s').1.bind Note.parse = .ok note')
    (apart : ∀ d, Names root selection options s d → d.basename ≠ root.basename) :
    (∀ m t m' t', (assemble root selection options).on s = some (.ok m, t) →
      (assemble root selection' options).on s' = some (.ok m', t') →
      ∃ parts parts', MadeOf root selection options s m parts ∧
        MadeOf root selection' options s' m' parts' ∧
        (note.body.Forall₂ (Sections.SameBut "abstract") note'.body →
          (parts'.body = parts.body ∧ parts'.appendix = parts.appendix) ∧
            m'.body = m.body ∧ m'.appendix = m.appendix) ∧
        (note.body.Forall₂ (Sections.SameBut "appendix") note'.body →
          (parts'.abstractPart = parts.abstractPart ∧ parts'.body = parts.body) ∧
            m'.abstractText = m.abstractText ∧ m'.body = m.body)) ∧
    ∀ n, options.maxEmbedDepth = some n →
      (∃ m t, (assemble root selection options).on s = some (.ok m, t)) ∧
        ∃ m' t', (assemble root selection' options).on s' = some (.ok m', t') := by
  refine ⟨?_, fun n limited =>
    ⟨exists_manuscript_of_limit limited parsed, exists_manuscript_of_limit limited parsed'⟩⟩
  intro m t m' t' run run'
  obtain ⟨_, parts, same, rfl, derived⟩ := exists_regions_of_assemble run
  cases parsed.symm.trans same
  obtain ⟨_, parts', same, rfl, derived'⟩ := exists_regions_of_assemble run'
  cases parsed'.symm.trans same
  obtain ⟨documents, -⟩ := rootOutcome_store root selection s
  obtain ⟨documents', -⟩ := rootOutcome_store root selection' s'
  have left : Offers s.store s.store.noteAt (fun d => d.basename ≠ root.basename)
      (resolver (rootOutcome root selection s).2 (Cache.empty.add root.basename note) []
        options.maxEmbedDepth) :=
    offers_start (Memory.titles_congr documents)
      (fun d _ => Memory.noteAt_congr documents d) note _
  have right : Offers s.store s.store.noteAt (fun d => d.basename ≠ root.basename)
      (resolver (rootOutcome root selection' s').2 (Cache.empty.add root.basename note') []
        options.maxEmbedDepth) :=
    offers_start ((Memory.titles_congr documents').trans beside.titles)
      (fun d other => (Memory.noteAt_congr documents' d).trans (beside.noteAt other)) note' _
  have met : MeetsOnly s.store (fun d => d.basename ≠ root.basename) options.maxEmbedDepth
      (Sections.classify note.body) (rootOutcome root selection s).2
      (Cache.empty.add root.basename note) := by
    intro r nodes begins q link met free e names
    obtain ⟨noImage, found⟩ := Memory.noteNamed?_eq_some_iff.1 names
    exact apart e ⟨q, link, ⟨note, r, nodes, parsed, begins, met⟩, noImage, free, found⟩
  refine ⟨parts, parts', ⟨note, t, parsed, derived.on, rfl⟩, ⟨note', t', parsed', derived'.on, rfl⟩,
    fun alike => ?_, fun alike => ?_⟩
  · obtain ⟨bodyHeading, body, appendix⟩ := Sections.classify_of_sameBut_abstract alike
    obtain ⟨sameBody, sameAppendix⟩ :=
      derived.after_abstract distinct derived' left right met bodyHeading body appendix
    refine ⟨⟨sameBody, sameAppendix⟩, ?_, ?_⟩
    · rw [Regions.manuscript, Regions.manuscript, sameBody]
    · rw [Regions.manuscript, Regions.manuscript, sameAppendix]
  · obtain ⟨bodyHeading, body, abstractPart⟩ := Sections.classify_of_sameBut_appendix alike
    obtain ⟨sameAbstract, sameBody⟩ :=
      derived.before_appendix distinct derived' left right met bodyHeading body abstractPart
    refine ⟨⟨sameAbstract, sameBody⟩, ?_, ?_⟩
    · rw [Regions.manuscript, Regions.manuscript, sameAbstract]
    · rw [Regions.manuscript, Regions.manuscript, sameBody]

/-- A note, and a draft that is no note. -/
def partAndDraft : Memory := ⟨[(⟨"draft.txt"⟩, ""), (⟨"part.md"⟩, "shared [@key]\n")], [], []⟩

/-- The session in which the draft has the given text. -/
def draftOf (text : String) : Session Memory :=
  ⟨partAndDraft.replacing ⟨"draft.txt"⟩ text, [], [], .open_ none⟩

/-- A text with a short abstract. -/
def shortAbstract : String := "![[part]]\n\n# Abstract\nshort\n\n# Appendix\n![[part]]\n"

/-- The same text with an abstract that embeds what the other regions embed. -/
def embeddingAbstract : String :=
  "![[part]]\n\n# Abstract\n![[part]]\n\nlonger\n\n# Appendix\n![[part]]\n"

/-- An embed before two headings, of which the second owns an embed, and the plain titles. -/
def layout? : List Node → Option (Link × (Nat × String) × (Nat × String) × Link)
  | [.embed first, .heading level [.text title] _, .heading level' [.text title'] [.embed last]] =>
    some (first, (level, title), (level', title'), last)
  | _ => none

theorem sameBut_of_layout? {nodes nodes' : List Node}
    {x : Link × (Nat × String) × (Nat × String) × Link}
    (left : layout? nodes = some x) (right : layout? nodes' = some x)
    (isAbstract : Sections.regionTitle [.text x.2.1.2] = "abstract") :
    nodes.Forall₂ (Sections.SameBut "abstract") nodes' := by
  rw [layout?.eq_def] at left right
  split at left
  · cases left
    split at right
    · cases right
      exact .cons .same (.cons (.owned isAbstract) (.cons .same .nil))
    · cases right
  · cases left

theorem exists_note_of_layout? {text : String} {x : Link × (Nat × String) × (Nat × String) × Link}
    (found : ((Note.parse text).toOption.bind fun note => layout? note.body) = some x) :
    ∃ note, Note.parse text = .ok note ∧ layout? note.body = some x := by
  rcases parsed : Note.parse text with e | note
  · rw [parsed] at found
    cases found
  · rw [parsed] at found
    exact ⟨note, rfl, found⟩

/-- The abstracts differ, and one of them reads the other note first. -/
theorem regions_do_not_leak_draftOf :
    ∃ m t m' t',
      (assemble ⟨"draft.txt"⟩ none shallow).on (draftOf shortAbstract) = some (.ok m, t) ∧
      (assemble ⟨"draft.txt"⟩ none shallow).on (draftOf embeddingAbstract) = some (.ok m', t') ∧
      m'.body = m.body ∧ m'.appendix = m.appendix := by
  have layout : ∀ text ∈ [shortAbstract, embeddingAbstract],
      ((Note.parse text).toOption.bind fun note => layout? note.body) =
        some (⟨"part", none, none⟩, (1, "Abstract"), (1, "Appendix"), ⟨"part", none, none⟩) := by
    decide +kernel
  obtain ⟨note, parsed, left⟩ := exists_note_of_layout? (layout shortAbstract (.head _))
  obtain ⟨note', parsed', right⟩ :=
    exists_note_of_layout? (layout embeddingAbstract (.tail _ (.head _)))
  have holds : ∀ text, (rootOutcome ⟨"draft.txt"⟩ none (draftOf text)).1 = .ok text := by
    intro text
    exact Memory.read_replacing_of_same (by decide +kernel) (Memory.same_self _)
  have distinct : (draftOf shortAbstract).store.Distinct := by decide +kernel
  have others : ∀ d ∈ (draftOf shortAbstract).store.notes,
      d.basename ≠ (⟨"draft.txt"⟩ : Document).basename := by decide +kernel
  have apart : ∀ d, Names ⟨"draft.txt"⟩ none shallow (draftOf shortAbstract) d →
      d.basename ≠ (⟨"draft.txt"⟩ : Document).basename := by
    rintro d ⟨q, link, -, noImage, -, found⟩
    exact others d (Memory.mem_notes_of_noteNamed?
      (Memory.noteNamed?_eq_some_iff.2 ⟨noImage, found⟩))
  obtain ⟨apartFrom, exported⟩ := regions_do_not_leak distinct
    (Memory.sameBut_replacing partAndDraft _ shortAbstract embeddingAbstract)
    (by rw [holds]; exact parsed) (by rw [holds]; exact parsed') apart
  obtain ⟨⟨m, t, run⟩, m', t', run'⟩ := exported 1 rfl
  obtain ⟨_, _, -, -, sameBeside, -⟩ := apartFrom m t m' t' run run'
  exact ⟨m, t, m', t', run, run',
    (sameBeside (sameBut_of_layout? left right (by decide +kernel))).2⟩

end Export

end Longform
