import Mathlib.Data.List.Chain
import Mathlib.Data.List.Perm.Subperm
import Mathlib.Logic.Relation
import Longform.Proofs.Limit
import Longform.Proofs.Meets
import Longform.Proofs.Transparency

/-!
# Vaults without a cycle of embeds

The notes that are open at one time are a chain in which each is embedded in the
next. Where no note embeds itself, directly or through others, such a chain names
no note twice, so it is no longer than there are notes. The limit on the nesting
of embeds is then reached only by an embed that stands in the last note of a chain
of all notes, and names none of them.

* `Memory.EmbeddedIn` and `Memory.Acyclic`: the embeds between the notes of a store.
* `Calls.opens`: the calls of a run keep a chain of open notes, `Open`.
* `depthWarnings_of_acyclic`: under a limit of as many embeds as there are notes
  only embeds that name no note are too deep; under a greater one there are none.
* `not_quiet_at_noteCount`: as many as there are notes are not enough for there
  being none, since the limit is looked at before the note is searched.
-/

namespace Longform

/-! ## Embeds of a forest -/

namespace Node

mutual

/-- The links of the embeds that a block is or holds. -/
def linksOne : Node → List Link
  | .heading _ _ children => links children
  | .list _ items => itemLinks items
  | .embed link => [link]
  | .paragraph _ | .figure _ _ | .code _ _ | .quote _ | .displayMath _ => []

/-- The links of the embeds of a forest, at any depth and in list items too. -/
def links : List Node → List Link
  | [] => []
  | n :: ns => linksOne n ++ links ns

/-- The links of the embeds in the items of a list. -/
def itemLinks : List (List Node) → List Link
  | [] => []
  | item :: items => links item ++ itemLinks items

end

theorem links_cons (n : Node) (nodes : List Node) :
    links (n :: nodes) = linksOne n ++ links nodes := by
  rw [links]

theorem links_heading (level : Nat) (title : List Inline) (children nodes : List Node) :
    links (.heading level title children :: nodes) = links children ++ links nodes := by
  rw [links, linksOne]

theorem links_list (kind : ListKind) (items : List (List Node)) (nodes : List Node) :
    links (.list kind items :: nodes) = itemLinks items ++ links nodes := by
  rw [links, linksOne]

theorem itemLinks_cons (item : List Node) (items : List (List Node)) :
    itemLinks (item :: items) = links item ++ itemLinks items := by
  rw [itemLinks]

variable {level : Nat} {title : List Inline} {kind : ListKind} {children item nodes : List Node}
  {items : List (List Node)}

theorem links_children_subset :
    links children ⊆ links (.heading level title children :: nodes) := by
  rw [links_heading]
  exact List.subset_append_left _ _

theorem links_tail_subset (n : Node) : links nodes ⊆ links (n :: nodes) := by
  rw [links_cons]
  exact List.subset_append_right _ _

theorem links_head_subset (n : Node) : links [n] ⊆ links (n :: nodes) := by
  rw [links_cons, links_cons, links, List.append_nil]
  exact List.subset_append_left _ _

theorem links_item_subset : links item ⊆ links (.list kind (item :: items) :: nodes) := by
  rw [links_list, itemLinks_cons, List.append_assoc]
  exact List.subset_append_left _ _

theorem links_items_subset :
    links (.list kind items :: nodes) ⊆ links (.list kind (item :: items) :: nodes) := by
  rw [links_list, links_list, itemLinks_cons, List.append_assoc]
  exact List.subset_append_right _ _

/-- A section has no embeds that the forest it is found in lacks. -/
theorem links_subset_of_find {wanted : String} {nodes : List Node} {h : Heading}
    (find : findNormalized? wanted nodes = some h) : links h.children ⊆ links nodes := by
  induction nodes using headingInduction with
  | nil =>
    rw [findNormalized?] at find
    cases find
  | heading level title children nodes ihChildren ihNodes =>
    rw [findNormalized?, findInOne?] at find
    split at find
    · next hit =>
      cases find
      split at hit
      · cases hit
        exact links_children_subset
      · exact List.Subset.trans (ihChildren hit) links_children_subset
    · exact List.Subset.trans (ihNodes find) (links_tail_subset _)
  | other n nodes other ih =>
    rw [findNormalized?, findInOne?_of_level? other] at find
    exact List.Subset.trans (ih find) (links_tail_subset n)

end Node

theorem Resolver.links_subset_of_target? {link : Link} {d : Document} {note : Note} {frame : Frame}
    {content : List Node} (aim : target? link d note = some (frame, content)) :
    Node.links content ⊆ Node.links note.body := by
  rw [target?] at aim
  split at aim
  · cases aim
    exact List.Subset.refl _
  · obtain ⟨h, found, same⟩ := Option.map_eq_some_iff.1 aim
    cases same
    exact Node.links_subset_of_find found

/-- A call works on embeds that its caller works on, or on what the search for an embed found. -/
theorem Resolver.Calls.links_subset {σ : Type} [Store σ] {load : Document → Step σ Note}
    {r q : Resolver σ} {c c' : Call} (step : Calls load (r, c) (q, c')) :
    Node.links c'.blocks ⊆ Node.links c.blocks ∨
      ∃ link frame content r₁, c = .embed link ∧ c' = .forest content ∧
        Seeks load r link (.content frame content) r₁ := by
  cases step with
  | children => exact .inl Node.links_children_subset
  | list => exact .inl (Node.links_head_subset _)
  | embed => exact .inl (Node.links_head_subset _)
  | rest _ => exact .inl (Node.links_tail_subset _)
  | item => exact .inl Node.links_item_subset
  | items _ => exact .inl Node.links_items_subset
  | content sought => exact .inr ⟨_, _, _, _, rfl, rfl, sought⟩

/-! ## Embeds between notes -/

namespace Memory

variable {m : Memory} {d e : Document} {ds : List Document}

/-- The note that an address names; an address of an image names none. -/
def noteNamed? (m : Memory) (address : String) : Option Document :=
  if isImageAddress address then none else (Store.find address m).1.found

/-- The notes that the embeds of a forest name. -/
def named (m : Memory) (nodes : List Node) : List Document :=
  (Node.links nodes).filterMap fun link => m.noteNamed? link.address

/-- The notes that the embeds of a note name. -/
def embeddedBy (m : Memory) (d : Document) : List Document :=
  match m.noteAt d with
  | .ok note => m.named note.body
  | .error _ => []

/-- An embed of the note `e` names `d`. -/
def EmbeddedIn (m : Memory) (d e : Document) : Prop := e ∈ m.notes ∧ d ∈ m.embeddedBy e

/-- No note embeds itself, directly or through others. -/
def Acyclic (m : Memory) : Prop := ∀ d, ¬ Relation.TransGen m.EmbeddedIn d d

/-- Notes that can be ranked above those they embed do not embed themselves. -/
theorem acyclic_of_rank (rank : Document → Nat)
    (above : ∀ e ∈ m.notes, ∀ d ∈ m.embeddedBy e, rank d < rank e) : m.Acyclic := by
  have lt : ∀ {d e}, Relation.TransGen m.EmbeddedIn d e → rank d < rank e := by
    intro d e path
    induction path with
    | single step => exact above _ step.1 _ step.2
    | tail _ step ih => exact Nat.lt_trans ih (above _ step.1 _ step.2)
  intro d cycle
  exact Nat.lt_irrefl _ (lt cycle)

/-- Notes of which each is embedded in the next are different. -/
theorem Acyclic.nodup (acyclic : m.Acyclic) (chain : ds.IsChain m.EmbeddedIn) : ds.Nodup := by
  have paths : ds.IsChain (Relation.TransGen m.EmbeddedIn) :=
    chain.imp fun _ _ step => .single step
  refine paths.pairwise.imp ?_
  rintro d _ path rfl
  exact acyclic d path

theorem Acyclic.length_le (acyclic : m.Acyclic) (chain : ds.IsChain m.EmbeddedIn)
    (notes : ds ⊆ m.notes) : ds.length ≤ m.notes.length :=
  (List.subperm_of_subset (acyclic.nodup chain) notes).length_le

theorem noteNamed?_of_noImage {address : String} (noImage : isImageAddress address = false) :
    m.noteNamed? address = (Store.find address m).1.found := by
  rw [noteNamed?, noImage, if_neg Bool.false_ne_true]

theorem noteNamed?_eq_some_iff {address : String} :
    m.noteNamed? address = some d ↔
      isImageAddress address = false ∧ (Store.find address m).1.found = some d := by
  rw [noteNamed?]
  split
  · next image => simp [image]
  · next noImage => simp [noImage]

theorem noteNamed?_of_documents {m' : Memory} (h : m.documents = m'.documents) (address : String) :
    m.noteNamed? address = m'.noteNamed? address := by
  rcases found : Store.find address m with ⟨lookup, store⟩
  obtain ⟨-, found'⟩ := find_of_documents found h
  rw [noteNamed?, noteNamed?, found, found']

theorem mem_notes_of_noteNamed? {address : String} (h : m.noteNamed? address = some d) :
    d ∈ m.notes := by
  obtain ⟨noImage, names⟩ := noteNamed?_eq_some_iff.1 h
  rcases found : Store.find address m with ⟨⟨_, warnings⟩, store⟩
  rw [found] at names
  cases names
  exact mem_notes_of_find noImage found

theorem mem_notes_of_named {nodes : List Node} (h : d ∈ m.named nodes) : d ∈ m.notes := by
  obtain ⟨link, -, names⟩ := List.mem_filterMap.1 h
  exact mem_notes_of_noteNamed? names

theorem named_subset {nodes nodes' : List Node} (h : Node.links nodes ⊆ Node.links nodes') :
    m.named nodes ⊆ m.named nodes' := by
  intro d mem
  obtain ⟨link, among, names⟩ := List.mem_filterMap.1 mem
  exact List.mem_filterMap.2 ⟨link, h among, names⟩

theorem mem_named_embed {link : Link} :
    d ∈ m.named [.embed link] ↔ m.noteNamed? link.address = some d := by
  simp [named, Node.links, Node.linksOne]

end Memory

namespace Resolver

open Relation (ReflTransGen)

variable {m : Memory} {n : Nat} {ds : List Document} {r r' q : Resolver Memory} {nodes : List Node}
  {c c' : Call} {link : Link} {t : Target}

/-! ## Chains of open notes -/

theorem Seeks.agrees (distinct : m.Distinct) (sought : Seeks Step.load r link t r')
    (agrees : Agrees m r) : Agrees m r' := by
  have faithful : Faithful m Step.load := faithful_load distinct
  obtain ⟨_, -, alike⟩ := sought.transfer faithful faithful ⟨agrees, agrees, rfl⟩
  exact alike.left

theorem Call.agrees_of_after? {fuel : Nat} (distinct : m.Distinct)
    (ended : c.after? Step.load fuel r = some r') (agrees : Agrees m r) : Agrees m r' := by
  have faithful : Faithful m Step.load := faithful_load distinct
  obtain ⟨_, derived⟩ := Call.resolves_of_after? ended
  obtain ⟨_, -, alike⟩ := derived.transfer faithful faithful ⟨agrees, agrees, rfl⟩
  exact alike.left

/-- What is put in the place of an embed comes from a note that the embed names. -/
theorem Seeks.noteNamed? {frame : Frame} {content : List Node} (distinct : m.Distinct)
    (sought : Seeks Step.load r link (.content frame content) r') (agrees : Agrees m r) :
    ∃ d note, m.noteNamed? link.address = some d ∧ m.noteAt d = .ok note ∧
      Node.links content ⊆ Node.links note.body := by
  cases sought with
  | @content d warnings store note _ _ _ noImage free found loaded aim =>
    obtain ⟨rfl, found'⟩ := Memory.find_of_documents found agrees.documents
    have mem := Memory.mem_notes_of_find noImage found'
    have searched : Agrees m (r.searched warnings r.store) := ⟨agrees.documents, agrees.coherent⟩
    obtain ⟨_, loads, -, -⟩ := faithful_load distinct mem searched
    have outcome := Option.some.inj (loads.symm.trans loaded)
    refine ⟨d, note, ?_, (Prod.mk.inj outcome).1, links_subset_of_target? aim⟩
    rw [Memory.noteNamed?_of_noImage noImage, found']

/-- The notes `ds` are open, innermost first, where `nodes` are resolved under the limit `n`. -/
structure Open (m : Memory) (n : Nat) (ds : List Document) (q : Resolver Memory)
    (nodes : List Node) : Prop where
  agrees : Agrees m q
  limit : q.limit = some n
  depth : q.depth = ds.length
  notes : ds ⊆ m.notes
  chain : ds.IsChain m.EmbeddedIn
  /-- The blocks come from the innermost open note. -/
  inside : ∀ d ∈ ds.head?, ∀ e ∈ m.named nodes, m.EmbeddedIn e d

theorem Open.of_place {nodes' : List Node} (h : Open m n ds q nodes) (agrees : Agrees m r)
    (same : r.place = q.place) (links : Node.links nodes' ⊆ Node.links nodes) :
    Open m n ds r nodes' := by
  obtain ⟨-, depth, limit⟩ := place_eq_iff.1 same
  refine ⟨agrees, limit.trans h.limit, depth.trans h.depth, h.notes, h.chain, ?_⟩
  intro d innermost e mem
  exact h.inside d innermost e (Memory.named_subset links mem)

/-- A note that is named where others are open makes a longer chain. -/
theorem Open.cons {d : Document} (h : Open m n ds q nodes) (mem : d ∈ m.named nodes) :
    (d :: ds).IsChain m.EmbeddedIn ∧ d :: ds ⊆ m.notes := by
  constructor
  · exact List.isChain_cons.2 ⟨fun e innermost => h.inside e innermost d mem, h.chain⟩
  · exact List.cons_subset.2 ⟨Memory.mem_notes_of_named mem, h.notes⟩

/-- A call keeps the chain of open notes, or it opens one more. -/
theorem Calls.opens (distinct : m.Distinct) (h : Calls Step.load (r, c) (q, c'))
    (before : Open m n ds r c.blocks) : ∃ ds', Open m n ds' q c'.blocks := by
  have agrees := before.agrees
  cases h with
  | children =>
    refine ⟨ds, ⟨agrees.documents, agrees.coherent⟩, before.limit, before.depth, before.notes,
      before.chain, ?_⟩
    intro d innermost e mem
    exact before.inside d innermost e (Memory.named_subset Node.links_children_subset mem)
  | list => exact ⟨ds, before.of_place agrees rfl (Node.links_head_subset _)⟩
  | embed => exact ⟨ds, before.of_place agrees rfl (Node.links_head_subset _)⟩
  | rest ended =>
    exact ⟨ds, before.of_place (Call.agrees_of_after? distinct ended agrees)
      (Call.place_of_after? staysAt_load ended) (Node.links_tail_subset _)⟩
  | item => exact ⟨ds, before.of_place agrees rfl Node.links_item_subset⟩
  | items ended =>
    exact ⟨ds, before.of_place (Call.agrees_of_after? distinct ended agrees)
      (Call.place_of_after? staysAt_load ended) Node.links_items_subset⟩
  | @content link frame content _ r₁ sought =>
    obtain ⟨d, note, names, holds, part⟩ := sought.noteNamed? distinct agrees
    have after := sought.agrees distinct agrees
    obtain ⟨-, depth, limit⟩ := place_eq_iff.1 (sought.place staysAt_load)
    obtain ⟨chain, notes⟩ := before.cons (Memory.mem_named_embed.2 names)
    refine ⟨d :: ds, ⟨after.documents, after.coherent⟩, limit.trans before.limit, ?_, notes, chain,
      ?_⟩
    · change r₁.depth + 1 = ds.length + 1
      rw [depth, before.depth]
    · intro d' innermost e mem
      cases innermost
      have embedded : m.embeddedBy d = m.named note.body := by
        rw [Memory.embeddedBy, holds]
      refine ⟨Memory.mem_notes_of_noteNamed? names, ?_⟩
      rw [embedded]
      exact Memory.named_subset part mem

/-- Wherever an embed is met, the open notes are a chain. -/
theorem Meets.opens (distinct : m.Distinct) (before : Open m n ds r nodes)
    (met : Meets Step.load r nodes q link) : ∃ ds', Open m n ds' q [.embed link] := by
  refine met.along (J := fun q c => ∃ ds', Open m n ds' q c.blocks) ?_ ⟨ds, before⟩
  rintro r c q c' step ⟨ds', middle⟩
  exact step.opens distinct middle

/-! ## Warnings of the limit -/

/-- The warning is one that embeds are nested too deeply. -/
def TellsOfLimit (warning : String) : Prop :=
  "Embed depth limit ".toList <+: warning.toList

theorem tellsOfLimit_depthWarning (n : Nat) (address : String) :
    TellsOfLimit (depthWarning n address) := by
  have whole : depthWarning n address =
      "Embed depth limit " ++ (toString n ++ (" exceeded while resolving " ++ address)) := by
    delta depthWarning
    simp only [String.append_assoc]
  rw [TellsOfLimit, whole, String.toList_append]
  exact List.prefix_append _ _

theorem not_tellsOfLimit {warning beginning rest : String} (whole : warning = beginning ++ rest)
    (begins : beginning.toList.head?.any (· ≠ 'E') = true) : ¬ TellsOfLimit warning := by
  rintro ⟨_, same⟩
  obtain ⟨first, head, other⟩ := (Option.any_eq_true _ _).1 begins
  have limit : "Embed depth limit ".toList.head? = some 'E' := by decide +kernel
  have heads := congrArg List.head? same
  rw [whole, String.toList_append, List.head?_append, List.head?_append, limit, head] at heads
  exact of_decide_eq_true other (Option.some.inj heads).symm

theorem not_tellsOfLimit_loadWarning (address : String) (e : Error) :
    ¬ TellsOfLimit (loadWarning address e) := by
  have whole : loadWarning address e = "Could not load " ++ (address ++ (": " ++ e.message)) := by
    delta loadWarning
    simp only [String.append_assoc]
  exact not_tellsOfLimit whole (by decide +kernel)

theorem not_tellsOfLimit_headingWarning (title address : String) :
    ¬ TellsOfLimit (headingWarning title address) := by
  have whole : headingWarning title address =
      "Header not found: " ++ (title ++ (" in file with address " ++ address)) := by
    delta headingWarning
    simp only [String.append_assoc]
  exact not_tellsOfLimit whole (by decide +kernel)

/-- What a search for a document warns of is no limit. -/
theorem not_tellsOfLimit_of_find {address : String} {s : Memory} {warning : String}
    (mem : warning ∈ (Store.find address s).1.warnings) : ¬ TellsOfLimit warning := by
  change warning ∈ (Lookup.search address (s.documents.map (·.1))).warnings at mem
  simp only [Lookup.search] at mem
  split at mem
  · obtain rfl := List.mem_singleton.1 mem
    have whole : Lookup.missingWarning address = "File not found: " ++ address := by
      delta Lookup.missingWarning
      rfl
    exact not_tellsOfLimit whole (by decide +kernel)
  · next first others _ =>
    split at mem
    · cases mem
    · obtain ⟨other, -, rfl⟩ := List.mem_map.1 mem
      have whole : Lookup.repeatedWarning address other =
          "Multiple files found with the same name '" ++ (address ++
            ("'. Returning the first one found. Additional file found has path: " ++
              other.path)) := by
        delta Lookup.repeatedWarning
        simp only [String.append_assoc]
      exact not_tellsOfLimit whole (by decide +kernel)

/-- A search warns of the limit only where the limit is reached, and then of its own embed. -/
theorem Seeks.tellsOfLimit (sought : Seeks Step.load q link t r') :
    ∃ added, r'.warnings = q.warnings ++ added ∧ ∀ warning ∈ added, TellsOfLimit warning →
      isImageAddress link.address = false ∧ ∃ limit, q.reachedLimit? = some limit ∧
        warning = depthWarning limit link.address := by
  have quiet : ∀ {address warnings store found},
      Store.find address q.store = (⟨found, warnings⟩, store) →
      ∀ warning ∈ warnings, ¬ TellsOfLimit warning := by
    intro address warnings store found eq warning mem
    have told : warning ∈ (Store.find address q.store).1.warnings := by
      rw [eq]
      exact mem
    exact not_tellsOfLimit_of_find told
  have quietWith : ∀ {address warnings store found last},
      Store.find address q.store = (⟨found, warnings⟩, store) → ¬ TellsOfLimit last →
      ∀ warning ∈ warnings ++ [last], ¬ TellsOfLimit warning := by
    intro address warnings store found last eq quietLast warning mem
    rcases List.mem_append.1 mem with early | late
    · exact quiet eq warning early
    · rw [List.mem_singleton.1 late]
      exact quietLast
  cases sought with
  | @figure _ warnings _ _ found =>
    exact ⟨warnings, rfl, fun w mem tells => absurd tells (quiet found w mem)⟩
  | @noImage warnings _ _ found =>
    exact ⟨warnings, rfl, fun w mem tells => absurd tells (quiet found w mem)⟩
  | @tooDeep limit noImage reached =>
    refine ⟨[depthWarning limit link.address], rfl, fun w mem _ => ?_⟩
    exact ⟨noImage, limit, reached, List.mem_singleton.1 mem⟩
  | @missing warnings _ _ _ found =>
    exact ⟨warnings, rfl, fun w mem tells => absurd tells (quiet found w mem)⟩
  | @unloadable d warnings store e r₁ _ _ found loaded =>
    refine ⟨warnings ++ [loadWarning link.address e], ?_, fun w mem tells => ?_⟩
    · rw [warned, warnings_of_load loaded, searched, List.append_assoc]
    · exact absurd tells (quietWith found (not_tellsOfLimit_loadWarning _ _) w mem)
  | @noHeading d warnings store note r₁ _ _ found loaded _ =>
    refine ⟨warnings ++ [headingWarning (link.heading.getD "") link.address], ?_,
      fun w mem tells => ?_⟩
    · rw [warned, warnings_of_load loaded, searched, List.append_assoc]
    · exact absurd tells (quietWith found (not_tellsOfLimit_headingWarning _ _) w mem)
  | @content d warnings store note _ _ _ _ _ found loaded _ =>
    exact ⟨warnings, warnings_of_load loaded, fun w mem tells => absurd tells (quiet found w mem)⟩

omit m in
theorem le_depth_of_reached {limit : Nat} (limited : q.limit = some n)
    (reached : q.reachedLimit? = some limit) : limit = n ∧ n ≤ q.depth := by
  rw [reachedLimit?, limited] at reached
  obtain ⟨same, atLimit⟩ := Option.filter_eq_some_iff.1 reached
  cases same
  exact ⟨rfl, of_decide_eq_true atLimit⟩

/-- Where no note embeds itself, an embed that is too deep stands in the last of all notes, and it
names none of them. -/
theorem Open.missing_of_reached (opened : Open m n ds q [.embed link]) (acyclic : m.Acyclic)
    (le : m.notes.length ≤ n) (deep : n ≤ q.depth) :
    n = m.notes.length ∧ m.noteNamed? link.address = none := by
  have depth := opened.depth
  have room : ds.length ≤ m.notes.length := acyclic.length_le opened.chain opened.notes
  refine ⟨by omega, ?_⟩
  rcases names : m.noteNamed? link.address with _ | d
  · rfl
  · obtain ⟨chain, notes⟩ := opened.cons (Memory.mem_named_embed.2 names)
    have longer : (d :: ds).length ≤ m.notes.length := acyclic.length_le chain notes
    rw [List.length_cons] at longer
    omega

/-- The warning is of an embed that names no note, and the limit is as many embeds as there are
notes. -/
def DueToGap (m : Memory) (n : Nat) (warning : String) : Prop :=
  n = m.notes.length ∧ ∃ address, warning = depthWarning n address ∧
    isImageAddress address = false ∧ (Store.find address m).1.found = none

/-- From `r` to `q` the limit is only warned of for embeds that name no note. -/
def GapsOnly (m : Memory) (n : Nat) (r q : Resolver Memory) : Prop :=
  ∃ added, q.warnings = r.warnings ++ added ∧
    ∀ warning ∈ added, TellsOfLimit warning → DueToGap m n warning

theorem GapsOnly.refl (r : Resolver Memory) : GapsOnly m n r r :=
  ⟨[], (List.append_nil _).symm, nofun⟩

theorem GapsOnly.trans (first : GapsOnly m n r q) (second : GapsOnly m n q r') :
    GapsOnly m n r r' := by
  obtain ⟨before, adds, due⟩ := first
  obtain ⟨after, adds', due'⟩ := second
  refine ⟨before ++ after, ?_, fun warning mem tells => ?_⟩
  · rw [adds', adds, List.append_assoc]
  · rcases List.mem_append.1 mem with early | late
    · exact due warning early tells
    · exact due' warning late tells

theorem Seeks.gapsOnly (acyclic : m.Acyclic) (le : m.notes.length ≤ n)
    (opened : Open m n ds q [.embed link]) (sought : Seeks Step.load q link t r') :
    GapsOnly m n q r' := by
  obtain ⟨added, adds, due⟩ := sought.tellsOfLimit
  refine ⟨added, adds, fun warning mem tells => ?_⟩
  obtain ⟨noImage, limit, reached, same⟩ := due warning mem tells
  obtain ⟨rfl, deep⟩ := le_depth_of_reached opened.limit reached
  obtain ⟨full, nothing⟩ := opened.missing_of_reached acyclic le deep
  rw [Memory.noteNamed?_of_noImage noImage] at nothing
  exact ⟨full, link.address, same, noImage, nothing⟩

/-- Where no note embeds itself, a run warns of the limit only for embeds that name no note. -/
theorem Resolves.gapsOnly {P : AtSplice Memory} {fuel : Nat} {out : Resolved}
    (derived : Resolves Step.load P fuel r nodes out r') (distinct : m.Distinct)
    (acyclic : m.Acyclic) (le : m.notes.length ≤ n) (start : Open m n ds r nodes) :
    GapsOnly m n r r' := by
  have stable : Stable Step.load (fun q link => ∃ ds', Open m n ds' q [.embed link])
      (GapsOnly m n r) := by
    refine ⟨fun _ _ _ holds => holds, ?_⟩
    rintro q link t q' ⟨ds', opened⟩ sought before
    exact before.trans (sought.gapsOnly acyclic le opened)
  exact derived.keepsMeeting stable (fun _ _ met => met.opens distinct start) (.refl r)

/-- Let no note of a store embed itself, directly or through others, and let there be no more notes
than the limit `n` allows embeds to be nested. A run that begins outside of all embeds then warns of
the limit only for embeds that name no note, and only if `n` is the number of notes. So it never
does if the limit is greater. -/
theorem depthWarnings_of_acyclic (distinct : m.Distinct) (acyclic : m.Acyclic)
    (le : m.notes.length ≤ n) (agrees : Agrees m r) (limited : r.limit = some n)
    (outermost : r.depth = 0) (nodes : List Node) :
    ∃ out r', (unroll nodes).on r = some (.ok out, r') ∧
      (∀ warning ∈ emitted r r', TellsOfLimit warning →
        n = m.notes.length ∧ ∃ address, warning = depthWarning n address ∧
          isImageAddress address = false ∧ (Store.find address m).1.found = none) ∧
      (m.notes.length < n → ∀ warning ∈ emitted r r', ¬ TellsOfLimit warning) := by
  obtain ⟨out, r', run⟩ := unroll_on_limit limited nodes
  obtain ⟨_, -, derived⟩ := Resolves.of_on run
  have start : Open m n [] r nodes :=
    ⟨agrees, limited, outermost, List.nil_subset _, .nil, nofun⟩
  obtain ⟨added, adds, due⟩ := derived.gapsOnly distinct acyclic le start
  refine ⟨out, r', run, ?_, ?_⟩
  · rw [emitted_of_append adds]
    exact due
  rw [emitted_of_append adds]
  intro lt warning mem tells
  obtain ⟨same, -⟩ := due warning mem tells
  omega

/-- One note, with an embed of a note that is not there. -/
def dangling : Memory := ⟨[(⟨"a.md"⟩, "![[lost]]\n")], [], []⟩

/-- The limit is looked at before the note is searched, so as many embeds as there are notes are not
enough for there being no warning: in the last note an embed of a note that is not there is still
one too deep. -/
theorem not_quiet_at_noteCount :
    ¬ ∀ (m : Memory) (n : Nat) (nodes : List Node), m.Distinct → m.Acyclic → m.notes.length ≤ n →
      ∀ out r', (unroll nodes).on (initial m .empty (some n)) = some (.ok out, r') →
        ∀ limit address, depthWarning limit address ∉ r'.warnings := by
  intro quiet
  have acyclic : dangling.Acyclic := Memory.acyclic_of_rank (fun _ => 0) (by decide +kernel)
  obtain ⟨out, r', run⟩ := unroll_on_limit (r := initial dangling .empty (some 1)) rfl
    [.embed ⟨"a", none, none⟩]
  have warns : ((unroll [.embed ⟨"a", none, none⟩]).on (initial dangling .empty (some 1))).map
      (·.2.warnings) = some [depthWarning 1 "lost"] := by decide +kernel
  rw [run, Option.map_some, Option.some.injEq] at warns
  refine quiet dangling 1 _ (by decide +kernel) acyclic (by decide +kernel) out r' run 1 "lost" ?_
  rw [warns]
  exact List.mem_singleton_self _

/-- The note `outer` embeds `inner`, and `inner` one that is not there. -/
theorem acyclic_outerAndInner : outerAndInner.Acyclic :=
  Memory.acyclic_of_rank (fun d => if d.path = "outer.md" then 1 else 0) (by decide +kernel)

theorem depthWarnings_of_acyclic_outerAndInner :
    (∃ out r', (unroll [.embed ⟨"outer", none, none⟩]).on (initial outerAndInner .empty (some 2)) =
        some (.ok out, r') ∧ r'.warnings = [depthWarning 2 "lost"] ∧
      ∃ address, depthWarning 2 "lost" = depthWarning 2 address ∧
        (Store.find address outerAndInner).1.found = none) ∧
    ∃ out r', (unroll [.embed ⟨"outer", none, none⟩]).on (initial outerAndInner .empty (some 3)) =
        some (.ok out, r') ∧ ∀ warning ∈ r'.warnings, ¬ TellsOfLimit warning := by
  have distinct : outerAndInner.Distinct := by decide +kernel
  have start : ∀ n, Agrees outerAndInner (initial outerAndInner .empty (some n)) :=
    fun n => ⟨rfl, Memory.coherent_empty _⟩
  constructor
  · obtain ⟨out, r', run, due, -⟩ := depthWarnings_of_acyclic distinct acyclic_outerAndInner
      (n := 2) (by decide +kernel) (start 2) rfl rfl [.embed ⟨"outer", none, none⟩]
    have warns : ((unroll [.embed ⟨"outer", none, none⟩]).on
        (initial outerAndInner .empty (some 2))).map (·.2.warnings) =
          some [depthWarning 2 "lost"] := by decide +kernel
    rw [run, Option.map_some, Option.some.injEq] at warns
    have among : depthWarning 2 "lost" ∈ emitted (initial outerAndInner .empty (some 2)) r' := by
      rw [emitted_of_append (List.nil_append _).symm, warns]
      exact List.mem_singleton_self _
    obtain ⟨-, address, same, -, nothing⟩ := due _ among (tellsOfLimit_depthWarning 2 "lost")
    exact ⟨out, r', run, warns, address, same, nothing⟩
  · obtain ⟨out, r', run, -, quiet⟩ := depthWarnings_of_acyclic distinct acyclic_outerAndInner
      (n := 3) (by decide +kernel) (start 3) rfl rfl [.embed ⟨"outer", none, none⟩]
    have emits : emitted (initial outerAndInner .empty (some 3)) r' = r'.warnings :=
      emitted_of_append (List.nil_append _).symm
    rw [emits] at quiet
    exact ⟨out, r', run, quiet (by decide +kernel)⟩

end Resolver

end Longform
