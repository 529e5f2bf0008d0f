import Longform.Proofs.Growth
import Longform.Proofs.Levels
import Longform.Proofs.Outline
import Longform.Proofs.RegionsApart

/-!
# Notes under one body heading

A note whose blocks all stand under one heading titled "Body" is exported as if
the heading were left out and all others were one level higher.

* `Node.nest_lower`: to nest blocks and to move them up by one level is the same in
  both orders, as long as no heading is at level zero.
* `Sections.classify_nest_wrapped` and `Sections.classify_nest_relevel`: so both notes
  have the same body, the one below a heading of level zero, the other below none.
* `Export.body_heading_vanishes`: embeds cannot tell the two places apart, as long as
  none of them names the note itself.
-/

namespace Longform

namespace Node

variable {level : Nat} {title : List Inline} {n : Node} {blocks : List Node}

/-! ## Moving up before nesting -/

/-- No heading of a list of blocks is less deep than `level`. -/
def AtLeast (level : Nat) (blocks : List Node) : Prop :=
  ∀ l title children, .heading l title children ∈ blocks → level ≤ l

theorem AtLeast.of_sublist {part : List Node} (deep : AtLeast level blocks)
    (sub : List.Sublist part blocks) : AtLeast level part :=
  fun l title children mem => deep l title children (sub.mem mem)

theorem lower_append (a b : List Node) : lower (a ++ b) = lower a ++ lower b := by
  induction a with
  | nil => rw [lower, List.nil_append, List.nil_append]
  | cons n a ih => rw [List.cons_append, lower, lower, ih, List.cons_append]

/-- A heading that is not at level zero ends a section just when it does one level higher. -/
theorem endsSection_lowerOne (pos : 1 ≤ level) (deep : AtLeast 1 [n]) :
    endsSection (level - 1) (lowerOne n) = endsSection level n := by
  cases h : n.level? with
  | none =>
    rw [lowerOne_of_level? h]
    cases n with
    | heading l t children => cases h
    | _ => rfl
  | some l =>
    cases n with
    | heading l t children =>
      have one : 1 ≤ l := deep l t children (List.mem_cons_self ..)
      rw [lowerOne, endsSection, endsSection, decide_eq_decide]
      omega
    | _ => cases h

theorem owned_lower (pos : 1 ≤ level) (deep : AtLeast 1 blocks) :
    owned (level - 1) (lower blocks) = lower (owned level blocks) ∧
      unowned (level - 1) (lower blocks) = lower (unowned level blocks) := by
  induction blocks with
  | nil => exact ⟨rfl, rfl⟩
  | cons n blocks ih =>
    obtain ⟨own, others⟩ := ih (deep.of_sublist (List.sublist_cons_self n blocks))
    have first : List.Sublist [n] (n :: blocks) := .cons_cons n (List.nil_sublist blocks)
    have ends := endsSection_lowerOne pos (deep.of_sublist first)
    rw [owned, owned, unowned, unowned, lower, List.takeWhile_cons, List.takeWhile_cons,
      List.dropWhile_cons, List.dropWhile_cons, ends]
    split
    · rw [lower]
      exact ⟨congrArg _ own, others⟩
    · rw [lower]
      exact ⟨rfl, rfl⟩

/-- Blocks whose headings are not at level zero can be moved up before they are nested. -/
theorem nest_lower (deep : AtLeast 1 blocks) : nest (lower blocks) = lower (nest blocks) := by
  fun_induction nest blocks with
  | case1 => rw [lower, nest]
  | case2 l title children rest below after =>
    have one : 1 ≤ l := deep l title children (List.mem_cons_self ..)
    have behind := deep.of_sublist (List.sublist_cons_self _ rest)
    obtain ⟨own, others⟩ := owned_lower one behind
    have inOwned : AtLeast 1 (owned l rest) := behind.of_sublist (List.takeWhile_sublist _)
    have inOthers : AtLeast 1 (unowned l rest) := behind.of_sublist (List.dropWhile_sublist _)
    rw [lower, lowerOne, nest_heading, own, others, below inOwned, after inOthers, lower, lowerOne,
      lower_append]
  | case3 n rest other ih =>
    have level := level?_eq_none other
    rw [lower, lowerOne_of_level? level, nest_cons_of_level? level, lower,
      lowerOne_of_level? level, ih (deep.of_sublist (List.sublist_cons_self n rest))]

/-- Where no list has a heading in it, to move up the forest is to move up every heading of its
list. -/
theorem nest_relevel_pred (deep : AtLeast 1 blocks) (unlisted : listedLevels blocks = []) :
    nest (relevel (· - 1) blocks) = lower (nest blocks) := by
  have everywhere : lower blocks = relevel (· - 1) blocks := by
    rw [lower_eq_relevelOuter, relevelOuter_eq_relevel_iff, unlisted]
    exact fun l mem => absurd mem List.not_mem_nil
  rw [← everywhere, nest_lower deep]

/-- Deeper blocks all stand under a heading that comes before them. -/
theorem nest_wrapped (deep : AtLeast (level + 1) blocks) :
    nest (.heading level title [] :: blocks) = [.heading level title (nest blocks)] := by
  have inside : Deeper level blocks := by
    intro n mem
    cases n with
    | heading l t children =>
      have lt := deep l t children mem
      rw [endsSection, decide_eq_false_iff_not]
      omega
    | _ => rfl
  have nothing : Closes level [] := fun n first => by cases first
  obtain ⟨own, others⟩ := owned_append inside nothing
  rw [List.append_nil] at own others
  rw [nest_heading, own, others, nest, List.nil_append]

/-- A heading at the top of a forest is a heading of its list. -/
theorem heading_mem_flatten {children nodes : List Node}
    (mem : .heading level title children ∈ nodes) :
    .heading level title [] ∈ flatten nodes := by
  obtain ⟨before, later, rfl⟩ := List.append_of_mem mem
  rw [flatten_append, flatten_heading]
  exact List.mem_append_right _ (List.mem_cons_self ..)

/-- The headings at the top of a forest have titles of its list. -/
theorem exists_heading_of_mem_nest (flat : Flat blocks) {children : List Node}
    (mem : .heading level title children ∈ nest blocks) : .heading level title [] ∈ blocks := by
  have listed := heading_mem_flatten mem
  rwa [flatten_nest flat] at listed

/-- A heading among blocks that were moved up has kept its title. -/
theorem exists_heading_of_mem_lower {children nodes : List Node}
    (mem : .heading level title children ∈ lower nodes) :
    ∃ l inner, .heading l title inner ∈ nodes := by
  induction nodes with
  | nil =>
    rw [lower] at mem
    cases mem
  | cons n nodes ih =>
    rw [lower] at mem
    rcases List.mem_cons.1 mem with first | later
    · cases n with
      | heading l t inner =>
        rw [lowerOne] at first
        cases first
        exact ⟨l, inner, List.mem_cons_self ..⟩
      | _ =>
        rw [lowerOne_of_level? rfl] at first
        cases first
    · obtain ⟨l, inner, among⟩ := ih later
      exact ⟨l, inner, List.mem_cons_of_mem _ among⟩

end Node

/-! ## Regions of the two notes -/

namespace Sections

variable {wanted : String} {nodes : List Node} {n : Node}

/-- No heading among some blocks opens a region or is titled "Body". -/
def Untitled (nodes : List Node) : Prop :=
  ∀ level title children, .heading level title children ∈ nodes →
    regionTitle title ∉ ["abstract", "appendix", "body"]

theorem Untitled.titled? (untitled : Untitled nodes)
    (isRegion : wanted ∈ ["abstract", "appendix", "body"]) (mem : n ∈ nodes) :
    titled? wanted n = none := by
  cases n with
  | heading level title children =>
    have other : regionTitle title ≠ wanted := by
      rintro rfl
      exact untitled level title children mem isRegion
    rw [Sections.titled?, if_neg other]
  | _ => rfl

theorem Untitled.lastTitled? (untitled : Untitled nodes)
    (isRegion : wanted ∈ ["abstract", "appendix", "body"]) : lastTitled? wanted nodes = none := by
  have none : nodes.filterMap (Sections.titled? wanted) = [] :=
    List.filterMap_eq_nil_iff.2 fun n mem => untitled.titled? isRegion mem
  rw [Sections.lastTitled?, none, List.getLast?_nil]

theorem Untitled.withoutTitled (untitled : Untitled nodes)
    (isRegion : wanted ∈ ["abstract", "appendix", "body"]) :
    withoutTitled wanted nodes = nodes := by
  refine List.filter_eq_self.2 fun n mem => ?_
  rw [untitled.titled? isRegion mem, Option.isNone_none]

/-- Where no heading is titled so, all is body. -/
theorem classify_of_untitled (untitled : Untitled nodes) :
    classify nodes = ⟨none, none, none, nodes⟩ := by
  have kept : nodes.flatMap openBody = nodes := by
    have alone : ∀ n ∈ nodes, openBody n = [n] := by
      intro n mem
      rw [openBody, untitled.titled? (by simp) mem]
    rw [List.flatMap_congr alone, List.flatMap_singleton']
  rw [classify, untitled.lastTitled? (by simp), untitled.lastTitled? (by simp),
    untitled.withoutTitled (by simp), untitled.withoutTitled (by simp),
    untitled.lastTitled? (by simp), kept, Option.map_none]

/-- A single heading titled "Body" gives way to what it owns. -/
theorem classify_wrapped {title : List Inline} (isBody : regionTitle title = "body") (level : Nat)
    (children : List Node) :
    classify [.heading level title children] =
      ⟨none, none, some ⟨level - 1, title, []⟩, Node.lower children⟩ := by
  simp [classify, Sections.lastTitled?, Sections.withoutTitled, Sections.titled?, openBody, isBody]

theorem classify_nest_wrapped {blocks : List Node} {title : List Inline}
    (isBody : regionTitle title = "body") (deep : Node.AtLeast 2 blocks) :
    classify (Node.nest (.heading 1 title [] :: blocks)) =
      ⟨none, none, some ⟨0, title, []⟩, Node.lower (Node.nest blocks)⟩ := by
  rw [Node.nest_wrapped deep, classify_wrapped isBody]

theorem classify_nest_relevel {blocks : List Node} (flat : Node.Flat blocks)
    (deep : Node.AtLeast 1 blocks) (untitled : Untitled blocks)
    (unlisted : Node.listedLevels blocks = []) :
    classify (Node.nest (Node.relevel (· - 1) blocks)) =
      ⟨none, none, none, Node.lower (Node.nest blocks)⟩ := by
  rw [Node.nest_relevel_pred deep unlisted]
  refine classify_of_untitled fun level title children mem => ?_
  obtain ⟨level', children', among⟩ := Node.exists_heading_of_mem_lower mem
  exact untitled level' title [] (Node.exists_heading_of_mem_nest flat among)

end Sections

/-! ## Exports of the two notes -/

namespace Export

open Resolver (Anyhow Offers Abreast NamesOnly)

variable {m : Memory} {given : Document → Except Error Note} {D : Document → Prop}
  {limit : Option Nat} {s s' t : Session Memory} {c c' d : Cache} {h h' : Option Heading}
  {nodes : List Node} {out : Resolved} {parts : Regions} {root : Document}
  {options : ExportOptions} {note : Note}

theorem ResolvesRegions.of_bodyOnly
    (derived : ResolvesRegions Anyhow limit ⟨none, none, h, nodes⟩ s c parts s') :
    ∃ out c', parts = ⟨none, out, none⟩ ∧
      ResolvesRegion Anyhow limit (h.map frameOf) nodes s c out s' c' := by
  cases derived with
  | intro first second third =>
    cases first
    cases third
    exact ⟨_, _, rfl, second⟩

theorem ResolvesRegions.bodyOnly
    (body : ResolvesRegion Anyhow limit (h.map frameOf) nodes s c out s' c') :
    ResolvesRegions Anyhow limit ⟨none, none, h, nodes⟩ s c ⟨none, out, none⟩ s' :=
  .intro .absent body .absent

/-- The level of a heading below which the body stands; zero when there is none. -/
def levelOf (h : Option Heading) : Nat := (h.map Heading.level).getD 0

/-- A body has the same outcome below two headings of one level, in sessions which hold those notes
for the same that its embeds name. -/
theorem bodyOnly_abreast (distinct : m.Distinct)
    (beside : Abreast m given D [] [] (resolver s c [] none) (resolver t d [] none))
    (level : levelOf h' = levelOf h)
    (names : NamesOnly m D (resolver s c (h.map frameOf).toList limit) nodes ∨
      NamesOnly m D (resolver t d (h'.map frameOf).toList limit) nodes)
    {outcome : Except Error Regions}
    (run : (regions limit ⟨none, none, h, nodes⟩ c).on s = some (outcome, s')) :
    ∃ t', (regions limit ⟨none, none, h', nodes⟩ d).on t = some (outcome, t') ∧
      s'.warnings = t'.warnings := by
  obtain ⟨parts, rfl, derived⟩ := ResolvesRegions.of_on run
  obtain ⟨out, c', rfl, body⟩ := derived.of_bodyOnly
  have frames :
      ((h'.map frameOf).map Frame.level).getD 0 = ((h.map frameOf).map Frame.level).getD 0 := by
    rw [Option.map_map, Option.map_map]
    exact level
  obtain ⟨t', d', body', _, _, more, told, told'⟩ :=
    body.abreast_of_level distinct beside frames names
  exact ⟨t', (ResolvesRegions.bodyOnly body').on, told.trans told'.symm⟩

theorem bodyOnly_seen (distinct : m.Distinct)
    (beside : Abreast m given D [] [] (resolver s c [] none) (resolver t d [] none))
    (level : levelOf h' = levelOf h)
    (names : NamesOnly m D (resolver s c (h.map frameOf).toList limit) nodes ∨
      NamesOnly m D (resolver t d (h'.map frameOf).toList limit) nodes) :
    ((regions limit ⟨none, none, h, nodes⟩ c).on s).map seen =
      ((regions limit ⟨none, none, h', nodes⟩ d).on t).map seen := by
  refine Resolver.map_eq_map_of_transfer ?_ ?_
  · rintro ⟨outcome, s'⟩ run
    obtain ⟨t', run', told⟩ := bodyOnly_abreast distinct beside level names run
    exact ⟨_, run', by rw [seen, seen, told]⟩
  · rintro ⟨outcome, t'⟩ run
    obtain ⟨s', run', told⟩ := bodyOnly_abreast distinct beside.symm level.symm names.symm run
    exact ⟨_, run', by rw [seen, seen, told]⟩

/-- No embed that is met in making the manuscript of a note names a note called like the root. -/
def NamesOthers (root : Document) (note : Note) (options : ExportOptions) (s : Session Memory) :
    Prop :=
  MeetsOnly s.store (fun d => d.basename ≠ root.basename) options.maxEmbedDepth
    (Sections.classify note.body) s (Cache.empty.add root.basename note)

theorem NamesOthers.bodyOnly (others : NamesOthers root note options s)
    (only : Sections.classify note.body = ⟨none, none, h, nodes⟩) :
    NamesOnly s.store (fun d => d.basename ≠ root.basename)
      (resolver s (Cache.empty.add root.basename note) (h.map frameOf).toList options.maxEmbedDepth)
      nodes := by
  rw [NamesOthers, only] at others
  exact others (.body .absent)

/-- Before the first region two roots of one name differ in nothing but their own text. -/
theorem abreast_start (root : Document) (note note' : Note) (s : Session Memory) :
    Abreast s.store s.store.noteAt (fun d => d.basename ≠ root.basename) [] []
      (resolver s (Cache.empty.add root.basename note) [] none)
      (resolver s (Cache.empty.add root.basename note') [] none) :=
  ⟨offers_start rfl (fun _ _ => rfl) note none, offers_start rfl (fun _ _ => rfl) note' none,
    s.warnings, rfl, rfl⟩

/-- A note whose blocks all stand under one heading titled "Body" gives the manuscript that it would
give without the heading and with all others one level higher, and the same warnings, or neither
gives one. This is so as long as the headings are deeper than "Body", none of them is titled like a
region and none stands in a list item, and as long as no embed that is met, be it in the one note or
in the other, names a note called like the root. Under a limit there is a manuscript. -/
theorem body_heading_vanishes {blocks : List Node} {title : List Inline}
    (distinct : s.store.Distinct) (isBody : Sections.regionTitle title = "body")
    (flat : Node.Flat blocks) (deep : Node.AtLeast 2 blocks) (untitled : Sections.Untitled blocks)
    (unlisted : Node.listedLevels blocks = []) (frontMatter : FrontMatter)
    (others :
      NamesOthers root ⟨frontMatter, Node.nest (.heading 1 title [] :: blocks)⟩ options s ∨
        NamesOthers root ⟨frontMatter, Node.nest (Node.relevel (· - 1) blocks)⟩ options s) :
    ((manuscriptOf root ⟨frontMatter, Node.nest (.heading 1 title [] :: blocks)⟩ options).on s).map
        seen =
      ((manuscriptOf root ⟨frontMatter, Node.nest (Node.relevel (· - 1) blocks)⟩ options).on s).map
        seen ∧
    ∀ n, options.maxEmbedDepth = some n →
      ∃ manuscript t, (manuscriptOf root
        ⟨frontMatter, Node.nest (.heading 1 title [] :: blocks)⟩ options).on s =
          some (.ok manuscript, t) := by
  have one : Node.AtLeast 1 blocks := fun l t c mem => Nat.le_of_lt (deep l t c mem)
  have below := Sections.classify_nest_wrapped isBody deep
  have above := Sections.classify_nest_relevel flat one untitled unlisted
  refine ⟨?_, ?_⟩
  · rw [manuscriptOf_seen, manuscriptOf_seen, below, above]
    exact congrArg (Option.map _) (bodyOnly_seen distinct (abreast_start ..) rfl
      (others.imp (·.bodyOnly below) (·.bodyOnly above)))
  · intro n limited
    rw [manuscriptOf_on, limited]
    obtain ⟨parts, t, run⟩ := regions_on_limit n
      (Sections.classify (Node.nest (.heading 1 title [] :: blocks)))
      (Cache.empty.add root.basename ⟨frontMatter, Node.nest (.heading 1 title [] :: blocks)⟩) s
    exact ⟨_, t, congrArg (Option.map _) run⟩

/-- A note with a heading and a citation. -/
def partOnly : Memory := ⟨[(⟨"part.md"⟩, "# Part\nshared [@key]\n")], [], []⟩

/-- Blocks that embed the note outside all sections and in one, and another name in a list. -/
def chapters : List Node :=
  [.paragraph [.text "lead"], .embed ⟨"part", none, none⟩, .heading 2 [.text "Methods"] [],
    .embed ⟨"part", none, none⟩, .heading 4 [.text "Detail"] [],
    .list .bulleted [[.embed ⟨"lost", none, none⟩]], .heading 3 [.text "Rest"] []]

theorem body_heading_vanishes_chapters :
    ∃ manuscript t t',
      (manuscriptOf ⟨"paper.md"⟩ ⟨.empty, Node.nest (.heading 1 [.text "Body"] [] :: chapters)⟩
        shallow).on ⟨partOnly, [], [], .open_ none⟩ = some (.ok manuscript, t) ∧
      (manuscriptOf ⟨"paper.md"⟩ ⟨.empty, Node.nest (Node.relevel (· - 1) chapters)⟩
        shallow).on ⟨partOnly, [], [], .open_ none⟩ = some (.ok manuscript, t') ∧
      t.warnings = t'.warnings := by
  have notRoot : ∀ d ∈ partOnly.notes,
      d.basename ≠ (⟨"paper.md"⟩ : Document).basename := by decide +kernel
  have others : NamesOthers ⟨"paper.md"⟩
      ⟨.empty, Node.nest (.heading 1 [.text "Body"] [] :: chapters)⟩ shallow
      ⟨partOnly, [], [], .open_ none⟩ :=
    fun _ _ _ _ _ d names => notRoot d (Memory.mem_notes_of_noteNamed? names)
  have deep : Node.AtLeast 2 chapters := by
    intro l t children mem
    simp only [chapters, List.mem_cons, List.not_mem_nil, or_false, reduceCtorEq, false_or,
      Node.heading.injEq] at mem
    omega
  have untitled : Sections.Untitled chapters := by
    intro l t children mem
    simp only [chapters, List.mem_cons, List.not_mem_nil, or_false, reduceCtorEq, false_or,
      Node.heading.injEq] at mem
    obtain ⟨-, rfl, -⟩ | ⟨-, rfl, -⟩ | ⟨-, rfl, -⟩ := mem <;> decide +kernel
  have distinct : partOnly.Distinct := by decide +kernel
  have isBody : Sections.regionTitle [.text "Body"] = "body" := by decide +kernel
  obtain ⟨alike, exported⟩ := body_heading_vanishes distinct isBody (Node.flat_flatten chapters)
    deep untitled (by decide +kernel) .empty (.inl others)
  obtain ⟨manuscript, t, run⟩ := exported 1 rfl
  rw [run, Option.map_some] at alike
  obtain ⟨⟨outcome, t'⟩, run', saw⟩ := Option.map_eq_some_iff.1 alike.symm
  obtain ⟨rfl, told⟩ := Prod.mk.inj saw
  exact ⟨manuscript, t, t', run, run', told.symm⟩

end Export

end Longform
