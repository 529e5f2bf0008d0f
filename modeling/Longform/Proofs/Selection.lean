import Longform.Proofs.Held
import Longform.Proofs.Visits

/-!
# Exports of selections

A selection is exported as if it were the text of its note. Embeds of the note
itself then mean the selection, and not what the vault holds.

* `selection_stands_in_for_root`: a selection is exported as the whole note would
  be if the note held the selection. An embed from which the note is not reached
  is resolved as in an export of the whole note; an embed of the note itself is
  replaced by what it means in the selection.
* `selection_hides_root`: so an embed of a section of the note brings nothing
  where the selection lacks the section.
-/

namespace Longform

namespace Memory

open Relation (ReflTransGen)

variable {m : Memory} {root d : Document} {text : String}

/-! ## Another text for a document -/

/-- The memory with another text for a document; nothing is added. -/
def replacing (m : Memory) (d : Document) (text : String) : Memory :=
  { m with documents := m.documents.map fun (e, old) => (e, if same d e then text else old) }

theorem titles_replacing (m : Memory) (d : Document) (text : String) :
    (m.replacing d text).titles = m.titles := by
  rw [titles, titles, replacing, List.map_map]
  rfl

theorem notes_replacing (m : Memory) (d : Document) (text : String) :
    (m.replacing d text).notes = m.notes :=
  notes_of_titles (titles_replacing m d text)

theorem Holds.replacing (stored : m.Holds root) (text : String) :
    (m.replacing root text).Holds root := by
  rw [Holds, notes_replacing]
  exact stored

theorem get?_replacing (m : Memory) (root : Document) (text : String) (d : Document) :
    (m.replacing root text).get? d =
      (m.get? d).map fun old => if same root d then text else old := by
  rw [get?, get?, replacing, List.find?_map]
  change Option.map _ (Option.map _ (m.documents.find? fun e => same d e.1)) = _
  rcases found : m.documents.find? (fun e => same d e.1) with _ | ⟨e, old⟩
  · rw [found]
    rfl
  · have fits : same d e = true :=
      List.find?_some (p := fun e : Document × String => same d e.1) found
    rw [found, same_congr fits root]
    rfl

theorem noteAt_replacing_of_ne (h : same root d = false) :
    (m.replacing root text).noteAt d = m.noteAt d := by
  have unchanged : (m.replacing root text).get? d = m.get? d := by
    rw [get?_replacing, h]
    exact Option.map_id'
  rw [noteAt, noteAt, read, read, unchanged]

/-- A stored document that gets another text is read with that text. -/
theorem read_replacing_of_same (stored : ∃ e ∈ m.titles, same d e = true)
    (h : same root d = true) : ((m.replacing root text).read d).1 = .ok text := by
  obtain ⟨e, mem, fits⟩ := stored
  obtain ⟨⟨_, old⟩, among, rfl⟩ := List.mem_map.1 mem
  have found : (m.documents.find? fun e => same d e.1).isSome = true :=
    List.find?_isSome.2 ⟨_, among, fits⟩
  obtain ⟨old', holds⟩ : ∃ old', m.get? d = some old' := by
    rw [get?]
    exact Option.isSome_iff_exists.1 (by rw [Option.isSome_map, found])
  rw [read, get?_replacing, holds, Option.map_some, if_pos h, Option.elim_some]

theorem mem_titles_of_notes (mem : d ∈ m.notes) : d ∈ m.titles :=
  (List.mem_filter.1 mem).1

theorem noteAt_replacing_of_same (mem : d ∈ m.notes) (h : same root d = true) :
    (m.replacing root text).noteAt d = Note.parse text := by
  rw [noteAt, read_replacing_of_same ⟨d, mem_titles_of_notes mem, same_self d⟩ h]
  rfl

theorem read_root_replacing (stored : m.Holds root) :
    ((m.replacing root text).read root).1 = .ok text := by
  obtain ⟨e, mem, fits⟩ := stored
  exact read_replacing_of_same ⟨e, mem_titles_of_notes mem, fits⟩ (same_self root)

/-! ## Notes that lead to the root -/

/-- The note `d` is the root, or embeds it, directly or through other notes. -/
def LeadsTo (m : Memory) (d root : Document) : Prop :=
  ∃ e ∈ m.notes, same root e = true ∧ ReflTransGen m.EmbeddedIn e d

theorem not_same_of_not_leadsTo (mem : d ∈ m.notes) (h : ¬ m.LeadsTo d root) :
    same root d = false := by
  refine eq_false_of_ne_true fun same => ?_
  exact h ⟨d, mem, same, .refl⟩

/-- Notes that do not lead to the root embed only such notes. -/
theorem closed_not_leadsTo (m : Memory) (root : Document) :
    m.Closed m.noteAt fun d => ¬ m.LeadsTo d root := by
  intro e mem apart note holds d named leads
  obtain ⟨root', stored, fits, path⟩ := leads
  have embeds : m.EmbeddedIn d e := by
    refine ⟨mem, ?_⟩
    rw [embeddedBy, holds]
    exact named
  exact apart ⟨root', stored, fits, path.tail embeds⟩

theorem closed_anything (m : Memory) (given : Document → Except Error Note) :
    m.Closed given fun _ => True :=
  fun _ _ _ _ _ _ _ => trivial

end Memory

namespace Export

open Resolver (Agrees Anyhow Offers Abreast Meets NamesOnly StandAlike Seeks target?)

variable {m : Memory} {given : Document → Except Error Note} {limit : Option Nat}
  {sections : Sections} {s s' t : Session Memory} {c c' d : Cache} {frame : Option Frame}
  {h : Option Heading} {nodes : List Node} {root : Document} {text : String} {note : Note}
  {q : Resolver Memory} {link : Link}

/-! ## Regions in two vaults -/

/-- The blocks of a region are resolved to the same in two sessions which hold those notes for the
same that are named by the embeds it meets, below headings of the same level. -/
theorem ResolvesRegion.abreast_of_level {D : Document → Prop} {w w' : List String} {out : Resolved}
    {frame' : Option Frame} (distinct : m.Distinct)
    (derived : ResolvesRegion Anyhow limit frame nodes s c out s' c')
    (beside : Abreast m given D w w' (resolver s c [] none) (resolver t d [] none))
    (level : (frame'.map Frame.level).getD 0 = (frame.map Frame.level).getD 0)
    (names : NamesOnly m D (resolver s c frame.toList limit) nodes ∨
      NamesOnly m D (resolver t d frame'.toList limit) nodes) :
    ∃ t' d', ResolvesRegion Anyhow limit frame' nodes t d out t' d' ∧
      Abreast m given D w w' (resolver s' c' [] none) (resolver t' d' [] none) := by
  cases derived with
  | @intro r inside =>
    obtain ⟨left, right, more, told, told'⟩ := beside
    have start : Abreast m given D w w' (resolver s c frame.toList limit)
        (resolver t d frame'.toList limit) :=
      ⟨left.of_same rfl rfl, right.of_same rfl rfl, more, told, told'⟩
    have ambient : ∀ (s : Session Memory) c (frame : Option Frame),
        (resolver s c frame.toList limit).ambientLevel = (frame.map Frame.level).getD 0 := by
      intro s c frame
      rw [Resolver.ambientLevel, resolver, Option.head?_toList]
    have alike : StandAlike (resolver s c frame.toList limit)
        (resolver t d frame'.toList limit) :=
      ⟨(ambient s c frame).trans (level.symm.trans (ambient t d frame').symm), rfl, rfl⟩
    obtain ⟨q, inside', after⟩ := inside.abreast_of_either distinct start alike names
    exact ⟨resolved t q, q.cache, .intro inside', after.left.of_same rfl rfl,
      after.right.of_same rfl rfl, after.warnings⟩

theorem ResolvesRegion.abreast {D : Document → Prop} {w w' : List String} {out : Resolved}
    (distinct : m.Distinct)
    (derived : ResolvesRegion Anyhow limit frame nodes s c out s' c')
    (beside : Abreast m given D w w' (resolver s c [] none) (resolver t d [] none))
    (met : ∀ q link, Meets Resolver.Step.load (resolver s c frame.toList limit) nodes q link →
      q.reachedLimit? = none → ∀ e, m.noteNamed? link.address = some e → D e) :
    ∃ t' d', ResolvesRegion Anyhow limit frame nodes t d out t' d' ∧
      Abreast m given D w w' (resolver s' c' [] none) (resolver t' d' [] none) :=
  derived.abreast_of_level distinct beside rfl (.inl met)

theorem ResolvesHeading.abreast {D : Document → Prop} {w w' : List String}
    {part : Option Resolved} (distinct : m.Distinct)
    (derived : ResolvesHeading Anyhow limit s c h part s' c')
    (beside : Abreast m given D w w' (resolver s c [] none) (resolver t d [] none))
    (met : ∀ heading, h = some heading → ∀ q link,
      Meets Resolver.Step.load (resolver s c [frameOf heading] limit) heading.children q link →
      q.reachedLimit? = none → ∀ e, m.noteNamed? link.address = some e → D e) :
    ∃ t' d', ResolvesHeading Anyhow limit t d h part t' d' ∧
      Abreast m given D w w' (resolver s' c' [] none) (resolver t' d' [] none) := by
  cases derived with
  | absent => exact ⟨t, d, .absent, beside⟩
  | present inside =>
    obtain ⟨t', d', inside', after⟩ := inside.abreast distinct beside (met _ rfl)
    exact ⟨t', d', .present inside', after⟩

/-- Two sessions in which every note is held for the same and that have given the same warnings. -/
def SideBySide (m : Memory) (given : Document → Except Error Note) (s : Session Memory) (c : Cache)
    (t : Session Memory) (d : Cache) : Prop :=
  Abreast m given (fun _ => True) [] [] (resolver s c [] none) (resolver t d [] none)

theorem SideBySide.symm (beside : SideBySide m given s c t d) : SideBySide m given t d s c :=
  Abreast.symm beside

theorem SideBySide.warnings (beside : SideBySide m given s c t d) : s.warnings = t.warnings := by
  obtain ⟨_, left, right⟩ := Abreast.warnings beside
  exact left.trans right.symm

/-- Regions are resolved to the same in two such sessions. -/
theorem ResolvesRegions.sideBySide {parts : Regions} (distinct : m.Distinct)
    (derived : ResolvesRegions Anyhow limit sections s c parts s')
    (beside : SideBySide m given s c t d) :
    ∃ t', ResolvesRegions Anyhow limit sections t d parts t' ∧ s'.warnings = t'.warnings := by
  cases derived with
  | intro first second third =>
    obtain ⟨_, _, first', beside₁⟩ := first.abreast distinct beside fun _ _ _ _ _ _ _ _ => trivial
    obtain ⟨_, _, second', beside₂⟩ := second.abreast distinct beside₁ fun _ _ _ _ _ _ => trivial
    obtain ⟨t₃, _, third', beside₃⟩ :=
      third.abreast distinct beside₂ fun _ _ _ _ _ _ _ _ => trivial
    exact ⟨t₃, .intro first' second' third', SideBySide.warnings beside₃⟩

theorem regions_seen_sideBySide (distinct : m.Distinct) (beside : SideBySide m given s c t d)
    (limit : Option Nat) (sections : Sections) :
    ((regions limit sections c).on s).map seen = ((regions limit sections d).on t).map seen := by
  refine Resolver.map_eq_map_of_transfer ?_ ?_
  · rintro ⟨outcome, s'⟩ run
    obtain ⟨parts, rfl, derived⟩ := ResolvesRegions.of_on run
    obtain ⟨t', derived', same⟩ := derived.sideBySide distinct beside
    exact ⟨_, derived'.on, by rw [seen, seen, same]⟩
  · rintro ⟨outcome, t'⟩ run
    obtain ⟨parts, rfl, derived⟩ := ResolvesRegions.of_on run
    obtain ⟨s', derived', same⟩ := derived.sideBySide distinct beside.symm
    exact ⟨_, derived'.on, by rw [seen, seen, same]⟩

/-! ## What a selection stands for -/

/-- Where a selection is known by the name of its note, every note is held for what it would be if
the note held the selection. -/
theorem offers_selection (distinct : m.Distinct) (stored : m.Holds root)
    (parsed : Note.parse text = .ok note) {r : Resolver Memory} (documents : r.store = m)
    (known : r.cache = Cache.empty.add root.basename note) :
    Offers m (m.replacing root text).noteAt (fun _ => True) r := by
  subst documents
  refine ⟨rfl, fun d mem _ => ?_⟩
  have found : r.cache.find? d.basename =
      if d.basename = root.basename then some note else none := by
    rw [known, Cache.find?_add]
    rfl
  by_cases named : d.basename = root.basename
  · obtain ⟨e, among, fits⟩ := stored
    obtain rfl := distinct d mem e among (named.trans (Memory.basename_of_same fits))
    rw [if_pos named] at found
    rw [Resolver.held_of_known found, Memory.noteAt_replacing_of_same mem fits, parsed]
  · rw [if_neg named] at found
    have other : Memory.same root d = false := by
      refine eq_false_of_ne_true fun same => named ?_
      exact (Memory.basename_of_same same).symm
    rw [Resolver.held_of_unknown found, Memory.noteAt_replacing_of_ne other]

theorem agrees_of_visits (distinct : s.store.Distinct) (stored : s.store.Holds root)
    {options : ExportOptions} (visits : Visits root none options s q link) :
    Agrees s.store q := by
  refine visits.keeps ⟨fun _ _ _ agrees => ⟨agrees.documents, agrees.coherent⟩, ?_⟩ ?_
  · exact fun _ sought agrees => sought.agrees distinct agrees
  · intro note parsed
    exact ⟨rfl, Memory.coherent_of_holds stored parsed⟩

theorem offers_of_visits (distinct : s.store.Distinct) (stored : s.store.Holds root)
    {options : ExportOptions} (visits : Visits root (some text) options s q link) :
    Offers s.store (s.store.replacing root text).noteAt (fun _ => True) q := by
  refine visits.keeps (Resolver.stable_offers distinct _) fun note parsed => ?_
  have read : Note.parse text = .ok note := parsed
  exact offers_selection distinct stored read rfl rfl

/-- A selection is exported like the note would be if it held the selection. -/
theorem assemble_selection_seen (distinct : s.store.Distinct) (stored : s.store.Holds root)
    (text : String) (options : ExportOptions) :
    ((assemble root (some text) options).on s).map seen =
      ((assemble root none options).on { s with store := s.store.replacing root text }).map
        seen := by
  have whole : (rootOutcome root none { s with store := s.store.replacing root text }).1 =
      .ok text := Memory.read_root_replacing stored
  rcases parsed : Note.parse text with e | note
  · have failed : (rootOutcome root (some text) s).1.bind Note.parse = .error e := parsed
    have failed' : (rootOutcome root none
        { s with store := s.store.replacing root text }).1.bind Note.parse = .error e := by
      rw [whole]
      exact parsed
    rw [assemble_on_error failed, assemble_on_error failed']
    rfl
  · have given : (rootOutcome root (some text) s).1.bind Note.parse = .ok note := parsed
    have given' : (rootOutcome root none
        { s with store := s.store.replacing root text }).1.bind Note.parse = .ok note := by
      rw [whole]
      exact parsed
    have left : Offers s.store (s.store.replacing root text).noteAt (fun _ => True)
        (resolver s (Cache.empty.add root.basename note) [] none) :=
      offers_selection distinct stored parsed rfl rfl
    have agrees : Agrees (s.store.replacing root text)
        (resolver (rootOutcome root none { s with store := s.store.replacing root text }).2
          (Cache.empty.add root.basename note) [] none) :=
      ⟨rfl, Memory.coherent_of_holds (stored.replacing text) given'⟩
    have right := agrees.offers (D := fun _ => True)
      (Memory.distinct_of_titles distinct (Memory.titles_replacing _ _ _))
    have beside : SideBySide s.store (s.store.replacing root text).noteAt s
        (Cache.empty.add root.basename note)
        (rootOutcome root none { s with store := s.store.replacing root text }).2
        (Cache.empty.add root.basename note) := by
      refine ⟨left, ⟨?_, ?_⟩, s.warnings, rfl, rfl⟩
      · exact right.titles.trans (Memory.titles_replacing _ _ _)
      · rw [← Memory.notes_replacing s.store root text]
        exact right.held
    have same := regions_seen_sideBySide distinct beside options.maxEmbedDepth
      (Sections.classify note.body)
    have rendered : ∀ x : Option (Except Error Regions × Session Memory),
        (x.map fun (outcome, s') =>
          (outcome.map fun parts => parts.manuscript note.frontMatter, s')).map seen =
        (x.map seen).map fun p =>
          (p.1.map fun parts => parts.manuscript note.frontMatter, p.2) := by
      intro x
      cases x <;> rfl
    rw [assemble_on_ok given, assemble_on_ok given', rendered, rendered, ← same]
    rfl

/-! ## Embeds in a selection -/

/-- The embed is resolved to the same in both states, or has no outcome in either. -/
def ResolvedAlike (q q' : Resolver Memory) (link : Link) : Prop :=
  ∀ fuel, ((Resolver.embed Resolver.Step.load fuel link).on q).map (·.1) =
    ((Resolver.embed Resolver.Step.load fuel link).on q').map (·.1)

/-- An embed of the root is replaced by what it means in the note that the root is held for. -/
theorem seeks_content_iff {d : Document} (offers : Offers m given (fun _ => True) q)
    (names : m.noteNamed? link.address = some d) (holds : given d = .ok note)
    (free : q.reachedLimit? = none) (frame : Frame) (content : List Node) :
    (∃ q', Seeks Resolver.Step.load q link (.content frame content) q') ↔
      target? link d note = some (frame, content) := by
  have mem := Memory.mem_notes_of_noteNamed? names
  have held : q.held d = .ok note := (offers.held d mem trivial).trans holds
  constructor
  · rintro ⟨q', sought⟩
    obtain ⟨_, _, names', -, holds', aim⟩ := sought.origin offers
    cases names.symm.trans names'
    cases holds.symm.trans (holds' trivial)
    exact aim
  · intro aim
    obtain ⟨noImage, names⟩ := Memory.noteNamed?_eq_some_iff.1 names
    rcases found : Store.find link.address q.store with ⟨⟨d', warnings⟩, store⟩
    obtain ⟨search, rfl⟩ := Prod.mk.inj ((offers.find _).symm.trans found)
    rw [Memory.find_eq, search] at names
    obtain rfl : d' = some d := names
    obtain ⟨outcome, q₁, loaded⟩ := Resolver.total_load d (q.searched warnings q.store)
    have outcome' : outcome = (q.searched warnings q.store).held d := Resolver.load_held loaded
    rw [outcome'.trans held] at loaded
    exact ⟨q₁, .content noImage free found loaded aim⟩

/-- Where base names are distinct, a selection of a stored note is exported as the whole note would
be if the note held the selection, and every embed that the export comes to is resolved as it would
be then. As far as an embed does not lead to the note, directly or through other notes, that is how
it is resolved in an export of the note as it is stored, at the same place. An embed of the note
itself is replaced by just what it means in the selection. -/
theorem selection_stands_in_for_root {s : Session Memory} {root : Document}
    (distinct : s.store.Distinct) (stored : s.store.Holds root) (text : String)
    (options : ExportOptions) :
    ((assemble root (some text) options).on s).map seen =
      ((assemble root none options).on { s with store := s.store.replacing root text }).map
        seen ∧
    (∀ q link, Visits root none options s q link → Agrees s.store q) ∧
    ∀ q link, Visits root (some text) options s q link →
      (∀ q₀, Agrees (s.store.replacing root text) q₀ → StandAlike q q₀ →
        ResolvedAlike q q₀ link) ∧
      ((∀ d, s.store.noteNamed? link.address = some d → ¬ s.store.LeadsTo d root) →
        ∀ q₀, Agrees s.store q₀ → StandAlike q q₀ → ResolvedAlike q q₀ link) ∧
      ∀ d note, s.store.noteNamed? link.address = some d → Memory.same root d = true →
        Note.parse text = .ok note → q.reachedLimit? = none → ∀ frame content,
          (∃ q', Seeks Resolver.Step.load q link (.content frame content) q') ↔
            target? link d note = some (frame, content) := by
  refine ⟨assemble_selection_seen distinct stored text options,
    fun q link visits => agrees_of_visits distinct stored visits, ?_⟩
  intro q link visits
  have offers := offers_of_visits distinct stored visits
  refine ⟨?_, ?_, ?_⟩
  · intro q₀ agrees alike fuel
    have other : Offers (s.store.replacing root text) (s.store.replacing root text).noteAt
        (fun _ => True) q₀ :=
      agrees.offers (Memory.distinct_of_titles distinct (Memory.titles_replacing _ _ _))
    have right : Offers s.store (s.store.replacing root text).noteAt (fun _ => True) q₀ := by
      refine ⟨other.titles.trans (Memory.titles_replacing _ _ _), ?_⟩
      rw [← Memory.notes_replacing s.store root text]
      exact other.held
    exact Resolver.embed_abreast distinct (Memory.closed_anything _ _) offers right alike
      (fun _ _ => trivial) fuel
  · intro apart q₀ agrees alike fuel
    have left : Offers s.store s.store.noteAt (fun d => ¬ s.store.LeadsTo d root) q := by
      refine ⟨offers.titles, fun d mem unled => ?_⟩
      rw [offers.held d mem trivial,
        Memory.noteAt_replacing_of_ne (Memory.not_same_of_not_leadsTo mem unled)]
    exact Resolver.embed_abreast distinct (Memory.closed_not_leadsTo _ root) left
      (agrees.offers distinct) alike apart fuel
  · intro d note names same parsed free
    have holds : (s.store.replacing root text).noteAt d = .ok note := by
      rw [Memory.noteAt_replacing_of_same (Memory.mem_notes_of_noteNamed? names) same, parsed]
    exact seeks_content_iff offers names holds free

/-- A note with a section, and another note. -/
def paperAndAside : Memory :=
  ⟨[(⟨"aside.md"⟩, "# Aside\nbeside\n"), (⟨"paper.md"⟩, "# Methods\nstored\n")], [], []⟩

/-- A selection that embeds the other note and its own. -/
def pasted : String := "selected\n\n![[aside]]\n\n![[paper]]\n"

/-- Embeds are not followed into embeds. -/
def shallow : ExportOptions := { ExportOptions.standard with maxEmbedDepth := some 1 }

theorem selection_stands_in_for_root_paperAndAside :
    ((assemble ⟨"paper.md"⟩ (some pasted) shallow).on ⟨paperAndAside, [], [], .open_ none⟩).map
        seen =
      ((assemble ⟨"paper.md"⟩ none shallow).on
        ⟨paperAndAside.replacing ⟨"paper.md"⟩ pasted, [], [], .open_ none⟩).map seen ∧
    ((assemble ⟨"paper.md"⟩ (some pasted) shallow).on ⟨paperAndAside, [], [], .open_ none⟩).map
        (fun (outcome, s) => (outcome.toOption.map Manuscript.joined, s.warnings)) =
      some (some "selected\n\n\\section\x7bAside\x7d\nbeside\n\nselected\n\n",
        [Resolver.depthWarning 1 "aside", Resolver.depthWarning 1 "paper"]) := by
  have distinct : paperAndAside.Distinct := by decide +kernel
  have stored : paperAndAside.Holds ⟨"paper.md"⟩ := by decide +kernel
  obtain ⟨whole, -, -⟩ := selection_stands_in_for_root (s := ⟨paperAndAside, [], [], .open_ none⟩)
    distinct stored pasted shallow
  exact ⟨whole, by decide +kernel⟩

/-- A selection that embeds a section which only the stored note has. -/
def lacking : String := "![[paper#Methods]]\n"

/-- The link of a forest that is a single embed. -/
def soleLink? : List Node → Option Link
  | [.embed link] => some link
  | _ => none

/-- The note of a text that is one. -/
def lackingNote : Note := ((Note.parse lacking).toOption).get (by decide +kernel)

theorem parse_lacking : Note.parse lacking = .ok lackingNote := by
  have read : (Note.parse lacking).toOption = some lackingNote := (Option.some_get _).symm
  rcases parsed : Note.parse lacking with e | note
  · rw [parsed] at read
    cases read
  · rw [parsed] at read
    cases read
    rfl

theorem visits_lacking :
    Visits ⟨"paper.md"⟩ (some lacking) .standard ⟨paperAndAside, [], [], .open_ none⟩
      (resolver ⟨paperAndAside, [], [], .open_ none⟩ (Cache.empty.add "paper" lackingNote) [] none)
      ⟨"paper", some "Methods", none⟩ := by
  have sole : soleLink? lackingNote.body = some ⟨"paper", some "Methods", none⟩ := by
    decide +kernel
  have body : lackingNote.body = [.embed ⟨"paper", some "Methods", none⟩] := by
    rw [soleLink?.eq_def] at sole
    split at sole
    · next only =>
      cases sole
      exact only
    · cases sole
  have sections : Sections.classify lackingNote.body =
      ⟨none, none, none, [.embed ⟨"paper", some "Methods", none⟩]⟩ := by
    rw [body]
    rfl
  have name : (⟨"paper.md"⟩ : Document).basename = "paper" := by decide +kernel
  refine ⟨lackingNote, _, [.embed ⟨"paper", some "Methods", none⟩], parse_lacking, ?_, .here⟩
  rw [sections, name]
  exact .body .absent

/-- The section of a stored note, embedded in a selection of the note that lacks it, brings nothing
but a warning; at the same place in an export of the note it brings what is stored. -/
theorem selection_hides_root :
    (¬ ∀ (s : Session Memory) (root : Document) (text : String) (options : ExportOptions)
      (q q₀ : Resolver Memory) (link : Link), s.store.Distinct → s.store.Holds root →
      Visits root (some text) options s q link → Agrees s.store q₀ → StandAlike q q₀ →
      ResolvedAlike q q₀ link) ∧
    ((assemble ⟨"paper.md"⟩ (some lacking) .standard).on
        ⟨paperAndAside, [], [], .open_ none⟩).map
        (fun (outcome, s) => (outcome.toOption.map Manuscript.joined, s.warnings)) =
      some (some "", [Resolver.headingWarning "Methods" "paper"]) := by
  refine ⟨fun alikeEverywhere => ?_, by decide +kernel⟩
  have alike := alikeEverywhere _ _ _ _ _ (Resolver.initial paperAndAside .empty none) _
    (by decide +kernel) (by decide +kernel) visits_lacking ⟨rfl, Memory.coherent_empty _⟩
    ⟨rfl, rfl, rfl⟩ 1
  have lengths := congrArg (Option.map fun outcome : Except Error Resolved =>
    outcome.toOption.map fun out => out.nodes.length) alike
  exact absurd lengths (by decide +kernel)

end Export

end Longform
