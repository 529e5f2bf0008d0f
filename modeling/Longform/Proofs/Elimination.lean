import Longform.Proofs.Descent
import Longform.Proofs.EmbedFree
import Longform.Proofs.Fuel

/-!
# No embed is left

Blocks come into the result of a run from three sides: from the forest that is
resolved, from the notes that embeds mean, and from searches that end at once. An
embed comes from none of them (`Resolves.embedFree_out`), however deeply embeds
were nested, and whatever went wrong.

Blocks without embeds are resolved without asking how an embed is resolved
(`walk_on_of_embedFree`), so a second run finds nothing to do. What this means for
runs and exports is `unroll_eliminates_embeds`.
-/

namespace Longform

open Node (embedFree embedFreeOne embedFreeItems citationKeys)

namespace Resolver

variable {σ : Type} [Store σ] {load : Document → Step σ Note} {P : AtSplice σ} {fuel : Nat}
  {r r' : Resolver σ} {link : Link} {nodes : List Node} {first out : Resolved}

theorem Seeks.embedFree_done (sought : Seeks load r link (.done first) r') :
    embedFree first.nodes = true := by
  have nothing : embedFree Resolved.empty.nodes = true := by
    rw [Resolved.empty, embedFree]
  cases sought with
  | figure _ _ =>
    rw [embedFree, embedFreeOne, embedFree]
    rfl
  | noImage _ _ => exact nothing
  | tooDeep _ _ => exact nothing
  | missing _ _ _ => exact nothing
  | unloadable _ _ _ _ => exact nothing
  | noHeading _ _ _ _ _ => exact nothing

/-- What blocks resolve to holds no embed. -/
theorem Resolves.embedFree_out (h : Resolves load P fuel r nodes out r') :
    embedFree out.nodes = true := by
  induction h with
  | nil => rw [Resolved.empty, embedFree]
  | @heading _ level title _ _ inner rest _ _ _ _ _ ihInner ihRest =>
    change embedFree (.heading level title inner.nodes :: rest.nodes) = true
    rw [embedFree, embedFreeOne, ihInner, ihRest]
    rfl
  | @leaf _ n _ rest _ _ isLeaf _ ih =>
    change embedFree (n :: rest.nodes) = true
    rw [embedFree, Node.embedFreeOne_of_isLeaf isLeaf, ih]
    rfl
  | noItems _ ih =>
    rw [embedFree, embedFreeOne, embedFreeItems, ih]
    rfl
  | item _ _ ihItem ihRest =>
    rw [embedFree, embedFreeOne, Bool.and_eq_true] at ihRest
    rw [embedFree, embedFreeOne, embedFreeItems, ihItem, ihRest.1, ihRest.2]
    rfl
  | done sought _ ih =>
    rw [Resolved.nodes_append, Node.embedFree_append, sought.embedFree_done, ih]
    rfl
  | splice _ _ _ _ ihInner ihRest =>
    rw [Resolved.nodes_append, Node.embedFree_append, moved, Node.embedFree_rebase, ihInner, ihRest]
    rfl

/-- Blocks without embeds resolve to themselves in whatever way embeds would be resolved, and
nothing else happens. -/
theorem walk_on_of_embedFree (free : embedFree nodes = true) (e : Link → Step σ Resolved)
    (r : Resolver σ) :
    (walk e nodes).on r = some (.ok ⟨nodes, ⟨[], citationKeys nodes⟩⟩, r) := by
  have derived : Resolves Step.load Anyhow 0 r nodes _ r := .of_embedFree free
  -- Without fuel every embed would go on for ever, so any other way to resolve them does no less.
  exact walk_below (fun _ => Action.diverge_below _) nodes r _ derived.on

end Resolver

namespace Export

open Resolver (Unrolls)

variable {σ : Type} [Store σ]

theorem regionsKeep_embedFree (P : Resolver.AtSplice σ) (limit : Option Nat) :
    RegionsKeep P limit (fun _ => True) (fun _ => True) fun out => embedFree out.nodes = true := by
  constructor
  intro frame nodes s cache out s' cache' derived _ _
  cases derived with
  | intro inside => exact ⟨trivial, inside.embedFree_out⟩

theorem ResolvesRegions.embedFree_out {P : Resolver.AtSplice σ} {limit : Option Nat}
    {sections : Sections} {s s' : Session σ} {cache : Cache} {parts : Regions}
    (derived : ResolvesRegions P limit sections s cache parts s') :
    ∀ part ∈ allRegions parts, embedFree part.nodes = true :=
  (regionsKeep_embedFree P limit).regions derived trivial (fun _ _ => trivial) trivial
    fun _ _ => trivial

/-- What runs of the resolver make of any blocks holds no embed, and to resolve it once more, over
whatever store and below whatever headings, changes nothing. Blocks that hold no embed are resolved
to themselves without a step for any embed: nothing is searched, read or warned of, and the state
stays as it is. So no region of an export has an embed to render. -/
theorem unroll_eliminates_embeds :
    (∀ (r r' : Resolver σ) (nodes : List Node) (outcome : Except Error Resolved),
      (Resolver.unroll nodes).on r = some (outcome, r') →
        ∃ out, outcome = .ok out ∧ Unrolls r nodes out r') ∧
    (∀ (r r' : Resolver σ) (nodes : List Node) (out : Resolved), Unrolls r nodes out r' →
      embedFree out.nodes = true ∧
      ∀ (τ : Type) [Store τ] (q : Resolver τ),
        (Resolver.unroll out.nodes).on q =
          some (.ok ⟨out.nodes, ⟨[], citationKeys out.nodes⟩⟩, q)) ∧
    (∀ nodes, embedFree nodes = true →
      ∀ (e : Link → Resolver.Step σ Resolved) (r : Resolver σ),
        (Resolver.walk e nodes).on r = some (.ok ⟨nodes, ⟨[], citationKeys nodes⟩⟩, r)) ∧
    ∀ (root : Document) (selection : Option String) (options : ExportOptions) (s s' : Session σ)
      (m : Manuscript), (assemble root selection options).on s = some (.ok m, s') →
        ∃ note parts, (rootOutcome root selection s).1.bind Note.parse = .ok note ∧
          m = parts.manuscript note.frontMatter ∧
          ResolvesRegions Resolver.Anyhow options.maxEmbedDepth (Sections.classify note.body)
            (rootOutcome root selection s).2 (Cache.empty.add root.basename note) parts s' ∧
          ∀ part ∈ allRegions parts, embedFree part.nodes = true := by
  refine ⟨?_, ?_, ?_, ?_⟩
  · intro r r' nodes outcome run
    exact Unrolls.of_on run
  · intro r r' nodes out unrolls
    obtain ⟨_, derived⟩ := unrolls.exists_resolves
    have free := derived.embedFree_out
    exact ⟨free, fun τ _ q => Resolver.walk_on_of_embedFree free _ q⟩
  · intro nodes free e r
    exact Resolver.walk_on_of_embedFree free e r
  · intro root selection options s s' m run
    obtain ⟨note, parts, parsed, same, derived⟩ := exists_regions_of_assemble run
    exact ⟨note, parts, parsed, same, derived, derived.embedFree_out⟩

/-- A note with an embed of a picture and one of a note that is not there. -/
def pictureAndGap : Memory :=
  ⟨[(⟨"part.md"⟩, "# Part\n![[plot.png]]\n\n![[lost]]\n"), (⟨"plot.png"⟩, "")], [], []⟩

/-- Embeds of the note below a heading and in a list. -/
def scattered : List Node :=
  [.heading 1 [] [.embed ⟨"part", none, none⟩],
    .list .bulleted [[.embed ⟨"part", some "Part", none⟩], [.embed ⟨"lost", none, none⟩]]]

theorem unroll_eliminates_embeds_scattered :
    embedFree scattered = false ∧
    ∃ out r', (Resolver.unroll scattered).on (Resolver.initial pictureAndGap .empty none) =
        some (.ok out, r') ∧
      embedFree out.nodes = true ∧
      (Resolver.unroll out.nodes).on r' =
        some (.ok ⟨out.nodes, ⟨[], citationKeys out.nodes⟩⟩, r') := by
  obtain ⟨ended, eliminated, -, -⟩ := unroll_eliminates_embeds (σ := Memory)
  obtain ⟨out, r', run⟩ := Action.exists_of_succeeds
    (show (Resolver.unroll scattered).succeeds (Resolver.initial pictureAndGap .empty none) = true
      by decide +kernel)
  obtain ⟨_, same, unrolls⟩ := ended _ _ _ _ run
  cases same
  obtain ⟨free, again⟩ := eliminated _ _ _ _ unrolls
  exact ⟨by decide +kernel, out, r', run, free, again Memory r'⟩

end Export

end Longform
