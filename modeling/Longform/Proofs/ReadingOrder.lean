import Mathlib.Data.List.Basic
import Longform.Proofs.Descent
import Longform.Proofs.Figures
import Longform.Proofs.Fuel
import Longform.Proofs.KnownNotes

/-!
# References in reading order

What a run says that its blocks refer to is what a reader of the blocks meets:
`Node.references` goes through a forest in reading order and lists the images
that are shown and the works that are cited.

* `Resolves.references_out`: this holds of a run that begins with blocks and
  notes that show no image.
* `references_in_reading_order` says what it means for runs and for exports.
-/

namespace Longform

open Node (figureFiles citationKeys)

namespace Node

/-- The images that a forest shows and the works that it cites, in reading order. -/
def references (nodes : List Node) : References := ⟨figureFiles nodes, citationKeys nodes⟩

theorem citationKeys_append (a b : List Node) :
    citationKeys (a ++ b) = citationKeys a ++ citationKeys b := by
  induction a with
  | nil => rfl
  | cons n a ih => rw [List.cons_append, citationKeys, citationKeys, ih, List.append_assoc]

theorem references_append (a b : List Node) : references (a ++ b) = references a ++ references b :=
  References.ext (figureFiles_append a b) (citationKeys_append a b)

/-- Moving a forest changes nothing that it refers to. -/
theorem references_rebase (base ambient : Nat) (nodes : List Node) :
    references (rebase base ambient nodes) = references nodes := by
  induction nodes using headingInduction with
  | nil => rw [rebase]
  | heading level title children nodes ihChildren ihNodes =>
    simp only [references, References.mk.injEq] at ihChildren ihNodes ⊢
    rw [rebase, rebaseOne]
    simp only [figureFiles, files, citationKeys, keys, ihChildren, ihNodes, and_self]
  | other n nodes h ih =>
    simp only [references, References.mk.injEq] at ih ⊢
    rw [rebase, rebaseOne_of_level? h]
    simp only [figureFiles, citationKeys, ih, and_self]

end Node

namespace Note

/-- The note shows no image. -/
def Figureless (note : Note) : Prop := figureFiles note.body = []

theorem everyParsed_figureless : EveryParsed Figureless := fun _ _ parsed => figureFiles_body parsed

end Note

namespace Resolver

variable {σ : Type} [Store σ] {P : AtSplice σ} {fuel : Nat} {r r' : Resolver σ} {link : Link}
  {nodes : List Node} {first out : Resolved}

theorem Seeks.references_done {load : Document → Step σ Note}
    (sought : Seeks load r link (.done first) r') :
    first.references = Node.references first.nodes := by
  cases sought with
  | figure _ _ => rfl
  | noImage _ _ => rfl
  | tooDeep _ _ => rfl
  | missing _ _ _ => rfl
  | unloadable _ _ _ _ => rfl
  | noHeading _ _ _ _ _ => rfl

theorem figureFiles_of_target? {d : Document} {note : Note} {frame : Frame}
    (figureless : note.Figureless) (aim : target? link d note = some (frame, nodes)) :
    figureFiles nodes = [] := by
  rw [target?] at aim
  split at aim
  · cases aim
    exact figureless
  · obtain ⟨h, found, same⟩ := Option.map_eq_some_iff.1 aim
    cases same
    exact Node.figureFiles_of_find figureless found

/-- Blocks that show no image are resolved to blocks that refer to just what the run says, as long
as no known note shows one. -/
theorem Resolves.references_out (h : Resolves Step.load P fuel r nodes out r')
    (known : r.cache.Every Note.Figureless) (figureless : figureFiles nodes = []) :
    out.references = Node.references out.nodes := by
  have parsed := Note.everyParsed_figureless
  induction h with
  | nil => rfl
  | @heading _ level title _ _ inner rest r _ _ inside _ ihInner ihRest =>
    rw [figureFiles, Node.files, List.append_eq_nil_iff] at figureless
    have after := inside.everyNote parsed known
    have fromInner := ihInner known figureless.1
    have fromRest := ihRest after figureless.2
    rw [Resolved.references_append, fromRest, underHeading, fromInner]
    change _ = Node.references (.heading level title inner.nodes :: rest.nodes)
    simp only [Node.references, figureFiles, Node.files, citationKeys, Node.keys]
    rfl
  | @leaf _ n _ rest _ _ isLeaf _ ih =>
    rw [figureFiles, List.append_eq_nil_iff] at figureless
    rw [Resolved.references_append, ih known figureless.2]
    change _ = Node.references (n :: rest.nodes)
    simp only [Node.references, figureFiles, citationKeys, figureless.1]
    rfl
  | noItems _ ih =>
    rw [figureFiles, List.append_eq_nil_iff] at figureless
    rw [ih known figureless.2]
    simp only [Node.references, figureFiles, Node.files, Node.itemFiles, citationKeys, Node.keys,
      Node.itemKeys, List.nil_append]
  | @item _ kind _ _ items' _ nodes' first references _ _ _ inside _ ihItem ihRest =>
    rw [figureFiles, Node.files, Node.itemFiles, List.append_eq_nil_iff,
      List.append_eq_nil_iff] at figureless
    obtain ⟨⟨inItem, inItems⟩, inRest⟩ := figureless
    have fromItem := ihItem known inItem
    have fromRest : references = Node.references (.list kind items' :: nodes') :=
      ihRest (inside.everyNote parsed known) (by rw [figureFiles, Node.files, inItems, inRest]; rfl)
    rw [fromItem, fromRest]
    simp only [Node.references, figureFiles, Node.files, Node.itemFiles, citationKeys, Node.keys,
      Node.itemKeys, List.append_assoc]
    rfl
  | done sought _ ih =>
    rw [figureFiles, List.append_eq_nil_iff] at figureless
    have fromRest := ih (sought.everyNote parsed known).1 figureless.2
    rw [Resolved.references_append, Resolved.nodes_append, Node.references_append,
      sought.references_done, fromRest]
  | splice sought inside _ _ ihInner ihRest =>
    rw [figureFiles, List.append_eq_nil_iff] at figureless
    obtain ⟨known₁, meant⟩ := sought.everyNote parsed known
    obtain ⟨_, _, inNote, aim⟩ := meant _ _ rfl
    have after := inside.everyNote parsed known₁
    have fromInner := ihInner known₁ (figureFiles_of_target? inNote aim)
    have fromRest := ihRest after figureless.2
    rw [Resolved.references_append, Resolved.nodes_append, Node.references_append, fromRest, moved,
      Node.references_rebase, fromInner]

end Resolver

/-! ## Exports -/

namespace Sections

variable {wanted : String} {n : Node} {h : Heading} {nodes : List Node}

theorem figureFiles_of_titled? (figureless : Node.files n = [])
    (titled : titled? wanted n = some h) : figureFiles h.children = [] := by
  rw [eq_of_titled? titled, Heading.toNode, Node.files] at figureless
  exact figureless

theorem figureFiles_of_lastTitled? (figureless : figureFiles nodes = [])
    (last : lastTitled? wanted nodes = some h) : figureFiles h.children = [] := by
  obtain ⟨n, inNodes, titled⟩ := List.mem_filterMap.1 (List.mem_of_getLast? last)
  exact figureFiles_of_titled? (Node.figureFiles_eq_nil_iff.1 figureless n inNodes) titled

theorem figureFiles_openBody (figureless : Node.files n = []) : figureFiles (openBody n) = [] := by
  rw [openBody]
  split
  · next h titled => rw [Node.figureFiles_lower, figureFiles_of_titled? figureless titled]
  · rw [figureFiles, figureless, figureFiles]
    rfl

theorem figureFiles_classify_body (figureless : figureFiles nodes = []) :
    figureFiles (classify nodes).body = [] := by
  rw [Node.figureFiles_eq_nil_iff] at figureless ⊢
  intro n mem
  obtain ⟨block, inRest, among⟩ := List.mem_flatMap.1 mem
  have inNodes : block ∈ nodes := (List.mem_filter.1 (List.mem_filter.1 inRest).1).1
  exact Node.figureFiles_eq_nil_iff.1 (figureFiles_openBody (figureless block inNodes)) n among

end Sections

namespace Export

open Resolver (Anyhow Unrolls)

variable {σ : Type} [Store σ] {P : Resolver.AtSplice σ} {limit : Option Nat}

theorem regionsKeep_references (P : Resolver.AtSplice σ) (limit : Option Nat) :
    RegionsKeep P limit (Cache.Every Note.Figureless) (fun nodes => figureFiles nodes = [])
      fun out => out.references = Node.references out.nodes := by
  constructor
  intro frame nodes s cache out s' cache' derived known figureless
  cases derived with
  | intro inside =>
    have known' := inside.everyNote Note.everyParsed_figureless known
    exact ⟨known', inside.references_out known figureless⟩

/-- The regions of a note that shows no image refer to what is met in their results. -/
theorem ResolvesRegions.references_out {nodes : List Node} {s s' : Session σ} {cache : Cache}
    {parts : Regions} (derived : ResolvesRegions P limit (Sections.classify nodes) s cache parts s')
    (known : cache.Every Note.Figureless) (figureless : figureFiles nodes = []) :
    ∀ part ∈ allRegions parts, part.references = Node.references part.nodes :=
  (regionsKeep_references P limit).regions derived known
    (fun _ last => Sections.figureFiles_of_lastTitled? figureless last)
    (Sections.figureFiles_classify_body figureless)
    fun _ last => Sections.figureFiles_of_lastTitled? figureless last

/-- What all regions refer to is what each of them does, in the order of an export. -/
theorem references_eq_flatMap {parts : Regions}
    (each : ∀ part ∈ allRegions parts, part.references = Node.references part.nodes) :
    parts.references =
      ⟨(allRegions parts).flatMap fun part => figureFiles part.nodes,
        (allRegions parts).flatMap fun part => citationKeys part.nodes⟩ := by
  have whole : parts.references =
      ⟨(allRegions parts).flatMap fun part => part.references.mediaFiles,
        (allRegions parts).flatMap fun part => part.references.citations⟩ := by
    rcases parts with ⟨_ | abstractPart, body, _ | appendix⟩ <;>
      simp [Regions.references, Regions.referencesOf, allRegions, References.ext_iff]
  rw [whole, References.mk.injEq]
  exact ⟨List.flatMap_congr fun part mem => congrArg References.mediaFiles (each part mem),
    List.flatMap_congr fun part mem => congrArg References.citations (each part mem)⟩

/-- Runs that begin with blocks and notes that show no image refer to the images that are met in
their result, and to the works that are, in reading order and as often as they are met. An export
refers to those met in its abstract, its body and its appendix, one after the other. -/
theorem references_in_reading_order :
    (∀ (r r' : Resolver σ) (nodes : List Node) (outcome : Except Error Resolved),
      (Resolver.unroll nodes).on r = some (outcome, r') →
        ∃ out, outcome = .ok out ∧ Unrolls r nodes out r') ∧
    (∀ (r r' : Resolver σ) (nodes : List Node) (out : Resolved),
      figureFiles nodes = [] → (∀ name note, r.cache.find? name = some note →
        figureFiles note.body = []) →
      Unrolls r nodes out r' →
        out.references.citations = citationKeys out.nodes ∧
          out.references.mediaFiles = figureFiles out.nodes) ∧
    ∀ (root : Document) (selection : Option String) (options : ExportOptions) (s s' : Session σ)
      (m : Manuscript), (assemble root selection options).on s = some (.ok m, s') →
        ∃ note parts, (rootOutcome root selection s).1.bind Note.parse = .ok note ∧
          m = parts.manuscript note.frontMatter ∧
          ResolvesRegions Anyhow options.maxEmbedDepth (Sections.classify note.body)
            (rootOutcome root selection s).2 (Cache.empty.add root.basename note) parts s' ∧
          m.references.citations =
            (allRegions parts).flatMap (fun part => citationKeys part.nodes) ∧
          m.references.mediaFiles =
            (allRegions parts).flatMap (fun part => figureFiles part.nodes) := by
  refine ⟨?_, ?_, ?_⟩
  · intro r r' nodes outcome run
    exact Unrolls.of_on run
  · intro r r' nodes out figureless known unrolls
    obtain ⟨_, derived⟩ := unrolls.exists_resolves
    have same := derived.references_out known figureless
    rw [same]
    exact ⟨rfl, rfl⟩
  · intro root selection options s s' m run
    obtain ⟨note, parts, parsed, rfl, derived⟩ := exists_regions_of_assemble run
    obtain ⟨text, read⟩ := Note.exists_parse_of_bind parsed
    have figureless : note.Figureless := Note.figureFiles_body read
    have known := (Cache.every_empty Note.Figureless).add figureless root.basename
    have same := references_eq_flatMap (derived.references_out known figureless)
    refine ⟨note, parts, parsed, rfl, derived, ?_, ?_⟩
    · exact congrArg References.citations same
    · exact congrArg References.mediaFiles same

/-- A note whose appendix comes first, and one that its body has embeds of. -/
def appendixFirst : Memory :=
  ⟨[(⟨"lit.md"⟩, "Shown [@b].\n![[plot.png]]\n"),
    (⟨"paper.md"⟩, "# Appendix\n[@c]\n# Abstract\n[@a]\n# Body\n- ![[lit]]\n\n![[lit]]\n"),
    (⟨"plot.png"⟩, "")], [], []⟩

theorem references_in_reading_order_appendixFirst :
    (∃ out r', (Resolver.unroll [.list .bulleted [[.embed ⟨"lit", none, none⟩]]]).on
        (Resolver.initial appendixFirst .empty none) = some (.ok out, r') ∧
      out.references.citations = citationKeys out.nodes ∧
      out.references.mediaFiles = figureFiles out.nodes) ∧
    ∃ m s', (assemble ⟨"paper.md"⟩ none .standard).on ⟨appendixFirst, [], [], .open_ none⟩ =
        some (.ok m, s') ∧
      (∃ parts : Regions,
        m.references.citations = (allRegions parts).flatMap fun part => citationKeys part.nodes) ∧
      m.references = ⟨[⟨"plot.png"⟩, ⟨"plot.png"⟩], ["a", "b", "b", "c"]⟩ := by
  obtain ⟨ended, ofRun, ofExport⟩ := references_in_reading_order (σ := Memory)
  refine ⟨?_, ?_⟩
  · obtain ⟨out, r', run⟩ := Action.exists_of_succeeds
      (show (Resolver.unroll [.list .bulleted [[.embed ⟨"lit", none, none⟩]]]).succeeds
        (Resolver.initial appendixFirst .empty none) = true by decide +kernel)
    obtain ⟨_, same, unrolls⟩ := ended _ _ _ _ run
    cases same
    exact ⟨out, r', run, ofRun _ _ _ _ rfl (fun _ _ found => by cases found) unrolls⟩
  · have met : ((assemble ⟨"paper.md"⟩ none .standard).on
        ⟨appendixFirst, [], [], .open_ none⟩).bind (fun p => p.1.toOption.map (·.references)) =
          some ⟨[⟨"plot.png"⟩, ⟨"plot.png"⟩], ["a", "b", "b", "c"]⟩ := by decide +kernel
    obtain ⟨⟨outcome, s'⟩, run, references⟩ := Option.bind_eq_some_iff.1 met
    cases outcome with
    | error e => cases references
    | ok m =>
      obtain ⟨_, parts, _, _, _, citations, _⟩ := ofExport _ _ _ _ _ _ run
      exact ⟨m, s', run, ⟨parts, citations⟩, Option.some.inj references⟩

end Export

end Longform
