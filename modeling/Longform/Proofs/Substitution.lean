import Longform.Proofs.EmbedFree
import Longform.Proofs.MemoryNotes
import Longform.Proofs.NoteShape

/-!
# Resolving as substitution in a flat text

What resolving embeds makes of a note can be told without any forest, open
headings or cache: go through the blocks in reading order, keep the level of the
last heading, and put in the place of each embed the blocks that it means, their
own embeds replaced in the same way and their headings shifted.

* `Memory.expand` is this substitution.
* `Resolver.resolves_nest`: the resolver makes of the forest of a flat list what
  the substitution makes of the list.
* `unroll_expands` is this for a run below one heading that begins with nothing
  known.
-/

namespace Longform

namespace Node

/-! ## Substitution -/

/-- The blocks with each embed replaced by what `put` makes of it at the level of the last heading
before it, or at the given level where there is none. -/
def substitute (put : Nat → Link → List Node) : (level : Nat) → List Node → List Node
  | _, [] => []
  | _, .heading level title children :: blocks =>
    .heading level title children :: substitute put level blocks
  | level, .embed link :: blocks => put level link ++ substitute put level blocks
  | level, n :: blocks => n :: substitute put level blocks

variable {put : Nat → Link → List Node} {level : Nat} {blocks : List Node}

theorem substitute_nil (put : Nat → Link → List Node) (level : Nat) :
    substitute put level [] = [] := by
  rw [substitute]

theorem substitute_heading (l : Nat) (title : List Inline) (children : List Node) :
    substitute put level (.heading l title children :: blocks) =
      .heading l title children :: substitute put l blocks := by
  rw [substitute]

theorem substitute_embed (link : Link) :
    substitute put level (.embed link :: blocks) =
      put level link ++ substitute put level blocks := by
  rw [substitute]

theorem substitute_other {n : Node} (other : n.level? = none) (noEmbed : ∀ link, n ≠ .embed link) :
    substitute put level (n :: blocks) = n :: substitute put level blocks := by
  cases n with
  | heading l title children => cases other
  | embed link => exact (noEmbed link rfl).elim
  | _ => rw [substitute] <;> nofun

/-- Where a section ends, nothing depends on the level before it. -/
theorem substitute_of_closes {deeper : Nat} (closes : Closes deeper blocks) (level' : Nat) :
    substitute put level blocks = substitute put level' blocks := by
  cases blocks with
  | nil => rw [substitute_nil, substitute_nil]
  | cons n blocks =>
    have ends := closes n rfl
    cases n with
    | heading l title children => rw [substitute_heading, substitute_heading]
    | _ => cases ends

/-- A section and what follows it are replaced apart. -/
theorem substitute_append {deeper : Nat} {before : List Node} (closes : Closes deeper blocks)
    (level' : Nat) :
    substitute put level (before ++ blocks) =
      substitute put level before ++ substitute put level' blocks := by
  induction before generalizing level with
  | nil =>
    rw [List.nil_append, substitute_nil, List.nil_append]
    exact substitute_of_closes closes level'
  | cons n rest ih =>
    rw [List.cons_append]
    rcases other : n.level? with _ | l
    · by_cases embed : ∃ link, n = .embed link
      · obtain ⟨link, rfl⟩ := embed
        rw [substitute_embed, substitute_embed, ih, List.append_assoc]
      · have noEmbed : ∀ link, n ≠ .embed link := fun link same => embed ⟨link, same⟩
        rw [substitute_other other noEmbed, substitute_other other noEmbed, ih, List.cons_append]
    · cases n with
      | heading l title children =>
        rw [substitute_heading, substitute_heading, ih, List.cons_append]
      | _ => cases other

/-! ## Sections of flat lists -/

theorem cutSection?_sublist {wanted : String} {h : Heading}
    (found : cutSection? wanted blocks = some h) :
    List.Sublist h.children blocks := by
  induction blocks with
  | nil => cases found
  | cons n blocks ih =>
    rcases other : n.level? with _ | l
    · rw [cutSection?_cons_of_level? other] at found
      exact (ih found).cons n
    · cases n with
      | heading l title children =>
        rw [cutSection?] at found
        split at found
        · cases found
          exact (List.takeWhile_sublist _).cons _
        · exact (ih found).cons _
      | _ => cases other

/-- No list among the blocks holds an embed. -/
def plainItems (blocks : List Node) : Bool :=
  blocks.all fun
    | .list _ items => embedFreeItems items
    | _ => true

theorem plainItems_of_sublist {part : List Node} (plain : plainItems blocks = true)
    (sub : List.Sublist part blocks) : plainItems part = true := by
  rw [plainItems, List.all_eq_true] at plain ⊢
  intro n mem
  exact plain n (sub.mem mem)

end Node

open Node (Flat flatten nest plainItems cutSection? shift substitute)

/-! ## What embeds stand for -/

/-- The level below which the blocks stand that a link means in a note, and these blocks in reading
order. -/
def meant? (link : Link) (note : Note) : Option (Nat × List Node) :=
  match link.heading with
  | none => some (0, flatten note.body)
  | some title =>
    (cutSection? (normalizeTitle title) (flatten note.body)).map fun h => (h.level, h.children)

namespace Memory

/-- The figure that an image is put in as, if there is such an image. -/
def figure (m : Memory) (link : Link) : List Node :=
  match (Store.findImage link.address m).1.found with
  | none => []
  | some file => [.figure file link.label]

/-- What a link means in a store. -/
def source? (m : Memory) (link : Link) : Option (Nat × List Node) :=
  (Store.find link.address m).1.found.bind fun d => (m.noteAt d).toOption.bind (meant? link)

/-- What takes the place of an embed below a heading of the given level: a figure, or the blocks
that the link means with their embeds replaced, moved below that heading. Nothing does where embeds
are nested more deeply than the limit or the link means nothing. -/
def replacement (m : Memory) : (limit level : Nat) → (link : Link) → List Node
  | 0, _, link => if isImageAddress link.address then m.figure link else []
  | limit + 1, level, link =>
    if isImageAddress link.address then m.figure link
    else match m.source? link with
      | none => []
      | some (base, blocks) =>
        (substitute (m.replacement limit) base blocks).map (shift base level)

theorem replacement_image {link : Link} (isImage : isImageAddress link.address = true) (m : Memory)
    (limit level : Nat) : m.replacement limit level link = m.figure link := by
  cases limit with
  | zero => rw [replacement, if_pos isImage]
  | succ limit => rw [replacement, if_pos isImage]

/-- The blocks with their embeds replaced, which may be nested as deeply as the limit says. -/
def expand (m : Memory) (limit level : Nat) (blocks : List Node) : List Node :=
  substitute (m.replacement limit) level blocks

/-- No list in a note holds an embed. -/
def Plain (m : Memory) : Prop :=
  ∀ d ∈ m.notes, (m.noteAt d).toOption.all (fun note => plainItems (flatten note.body)) = true

instance (m : Memory) : Decidable m.Plain :=
  inferInstanceAs (Decidable (∀ d ∈ m.notes, _ = true))

end Memory

namespace Resolver

variable {m : Memory} {load : Document → Step Memory Note} {d : Document} {note : Note}
  {link : Link} {r r' : Resolver Memory} {blocks : List Node}

/-! ## Searches -/

/-- The target of a link is what it means, as a forest. -/
theorem target?_eq (link : Link) (holds : m.noteAt d = .ok note) :
    target? link d note = (meant? link note).map fun (base, blocks) =>
      (⟨link.heading.getD d.basename, base⟩, nest blocks) := by
  obtain ⟨text, parsed⟩ := Note.exists_parse_of_bind holds
  obtain ⟨flat, same⟩ := Note.body_eq_nest parsed
  rw [target?, meant?]
  cases link.heading with
  | none =>
    exact congrArg (fun body => some (Frame.mk d.basename 0, body)) same
  | some title =>
    have found := Node.findNormalized?_nest flat (normalizeTitle title)
    rw [← same] at found
    simp only [Node.findHeading?, found, Option.map_map]
    rfl

theorem flat_of_meant? {base : Nat} (holds : m.noteAt d = .ok note)
    (aim : meant? link note = some (base, blocks)) :
    Flat blocks ∧ List.Sublist blocks (flatten note.body) := by
  obtain ⟨text, parsed⟩ := Note.exists_parse_of_bind holds
  obtain ⟨flat, -⟩ := Note.body_eq_nest parsed
  rw [meant?] at aim
  split at aim
  · cases aim
    exact ⟨flat, List.Sublist.refl _⟩
  · obtain ⟨h, found, same⟩ := Option.map_eq_some_iff.1 aim
    cases same
    have sub := Node.cutSection?_sublist found
    exact ⟨flat.of_sublist sub, sub⟩

theorem seeks_image (load : Document → Step Memory Note)
    (isImage : isImageAddress link.address = true) (agrees : Agrees m r) :
    ∃ references r', Seeks load r link (.done ⟨m.figure link, references⟩) r' ∧ Agrees m r' ∧
      r'.place = r.place := by
  rcases found : Store.findImage link.address r.store with ⟨⟨file, warnings⟩, store⟩
  obtain ⟨rfl, found'⟩ := Memory.findImage_of_documents found agrees.documents
  rw [Memory.figure, found']
  have agrees' : Agrees m (r.searched warnings r.store) := ⟨agrees.documents, agrees.coherent⟩
  cases file with
  | none => exact ⟨_, _, .noImage isImage found, agrees', rfl⟩
  | some file => exact ⟨_, _, .figure isImage found, agrees', rfl⟩

/-- The search for a note finds what the link means, and nothing where it means nothing. -/
theorem seeks_note (faithful : Faithful m load) (noImage : isImageAddress link.address = false)
    (free : r.reachedLimit? = none) (agrees : Agrees m r) :
    ∃ t r', Seeks load r link t r' ∧ Agrees m r' ∧ r'.place = r.place ∧
      match m.source? link with
      | none => t = .done .empty
      | some (base, blocks) => ∃ title, t = .content ⟨title, base⟩ (nest blocks) := by
  rcases found : Store.find link.address r.store with ⟨⟨_ | d, warnings⟩, store⟩
  · obtain ⟨rfl, found'⟩ := Memory.find_of_documents found agrees.documents
    rw [Memory.source?, found']
    exact ⟨_, _, .missing noImage free found, ⟨agrees.documents, agrees.coherent⟩, rfl, rfl⟩
  obtain ⟨rfl, found'⟩ := Memory.find_of_documents found agrees.documents
  have mem := Memory.mem_notes_of_find noImage found'
  have agreesFound : Agrees m (r.searched warnings r.store) := ⟨agrees.documents, agrees.coherent⟩
  obtain ⟨r₁, loaded, agrees₁, shown⟩ := faithful mem agreesFound
  have place₁ : r₁.place = r.place := (Prod.mk.inj shown).2
  rw [Memory.source?, found', Option.bind_some]
  rcases holds : m.noteAt d with e | note
  · rw [holds] at loaded
    exact ⟨_, _, .unloadable noImage free found loaded, ⟨agrees₁.documents, agrees₁.coherent⟩,
      place₁, rfl⟩
  rw [holds] at loaded
  have aim := target?_eq link holds
  rw [Except.toOption, Option.bind_some]
  rcases meant : meant? link note with _ | ⟨base, blocks⟩
  · rw [meant] at aim
    exact ⟨_, _, .noHeading noImage free found loaded aim,
      ⟨agrees₁.documents, agrees₁.coherent⟩, place₁, rfl⟩
  · rw [meant] at aim
    exact ⟨_, _, .content noImage free found loaded aim, agrees₁, place₁, _, rfl⟩

/-- What a link means is a flat list, in which no list holds an embed. -/
theorem flat_of_source? (plain : m.Plain) (noImage : isImageAddress link.address = false)
    {base : Nat} (source : m.source? link = some (base, blocks)) :
    Flat blocks ∧ plainItems blocks = true := by
  rcases found : Store.find link.address m with ⟨⟨_ | d, warnings⟩, store⟩
  · rw [Memory.source?, found] at source
    cases source
  have mem := Memory.mem_notes_of_find noImage found
  have plainNote := plain d mem
  rw [Memory.source?, found, Option.bind_some] at source
  rcases holds : m.noteAt d with e | note
  · rw [holds] at source
    cases source
  · rw [holds] at source plainNote
    obtain ⟨flat, sub⟩ := flat_of_meant? holds source
    exact ⟨flat, Node.plainItems_of_sublist plainNote sub⟩

/-! ## Runs -/

/-- Embeds may be nested just `k` times more. -/
def Room (k : Nat) (r : Resolver Memory) : Prop := r.limit = some (r.depth + k)

theorem Room.of_place {k : Nat} (h : Room k r) (same : r'.place = r.place) : Room k r' := by
  obtain ⟨-, depth, limit⟩ := place_eq_iff.1 same
  rw [Room, depth, limit]
  exact h

theorem Room.reachedLimit?_zero (h : Room 0 r) : r.reachedLimit? = some r.depth := by
  rw [Resolver.reachedLimit?, h]
  simp

theorem Room.reachedLimit?_succ {k : Nat} (h : Room (k + 1) r) : r.reachedLimit? = none := by
  rw [Resolver.reachedLimit?, h]
  simp

theorem Room.entered {k : Nat} (h : Room (k + 1) r) (frame : Frame) :
    Room k (r.opened frame).entered := by
  rw [Room] at h ⊢
  change r.limit = some (r.depth + 1 + k)
  rw [h]
  congr 1
  omega

/-- The resolver makes of the forest of a flat list what the substitution makes of the list. -/
def Expands (m : Memory) (load : Document → Step Memory Note) (k fuel : Nat) : Prop :=
  ∀ r blocks, Room k r → Agrees m r → Flat blocks → plainItems blocks = true →
    ∃ out r', Resolves load Anyhow fuel r (nest blocks) out r' ∧ Agrees m r' ∧
      r'.place = r.place ∧ flatten out.nodes = m.expand k r.ambientLevel blocks

theorem flatten_figure (m : Memory) (link : Link) : flatten (m.figure link) = m.figure link := by
  rw [Memory.figure]
  split
  · rw [flatten]
  · rw [Node.flatten_cons_of_level? rfl, flatten]

/-- The resolver puts in the place of an embed its replacement, and goes on. -/
def Replaces (m : Memory) (load : Document → Step Memory Note) (k fuel : Nat) (r : Resolver Memory)
    (link : Link) : Prop :=
  ∃ first r₁, flatten first.nodes = m.replacement k r.ambientLevel link ∧ Agrees m r₁ ∧
    r₁.place = r.place ∧
    ∀ {nodes rest r₂}, Resolves load Anyhow (fuel + 1) r₁ nodes rest r₂ →
      Resolves load Anyhow (fuel + 1) r (.embed link :: nodes) (first ++ rest) r₂

theorem replaces_image (isImage : isImageAddress link.address = true) (agrees : Agrees m r)
    (k fuel : Nat) : Replaces m load k fuel r link := by
  obtain ⟨references, r₁, sought, agrees₁, place₁⟩ := seeks_image load isImage agrees
  refine ⟨⟨m.figure link, references⟩, r₁, ?_, agrees₁, place₁, .done sought⟩
  rw [Memory.replacement_image isImage]
  exact flatten_figure m link

theorem replaces_tooDeep (noImage : isImageAddress link.address = false) (room : Room 0 r)
    (agrees : Agrees m r) (fuel : Nat) : Replaces m load 0 fuel r link := by
  refine ⟨.empty, r.warned _, ?_, ⟨agrees.documents, agrees.coherent⟩, rfl,
    .done (.tooDeep noImage room.reachedLimit?_zero)⟩
  rw [Memory.replacement, noImage, if_neg Bool.false_ne_true]
  exact Node.flatten_nil

/-- The blocks of a note are resolved inside the embed and moved below the heading outside it. -/
theorem replaces_note (faithful : Faithful m load) (plain : m.Plain) {k fuel : Nat}
    (deeper : Expands m load k fuel) (noImage : isImageAddress link.address = false)
    (room : Room (k + 1) r) (agrees : Agrees m r) : Replaces m load (k + 1) fuel r link := by
  obtain ⟨t, r₁, sought, agrees₁, place₁, meaning⟩ :=
    seeks_note faithful noImage room.reachedLimit?_succ agrees
  rw [Replaces, Memory.replacement, noImage, if_neg Bool.false_ne_true]
  rcases source : m.source? link with _ | ⟨base, blocks⟩
  · rw [source] at meaning
    obtain rfl := meaning
    exact ⟨.empty, r₁, Node.flatten_nil, agrees₁, place₁, .done sought⟩
  · rw [source] at meaning
    obtain ⟨title, rfl⟩ := meaning
    obtain ⟨flat, plainBlocks⟩ := flat_of_source? plain noImage source
    obtain ⟨inner, r₂, inside, agrees₂, place₂, expanded⟩ :=
      deeper (r₁.opened ⟨title, base⟩).entered blocks ((room.of_place place₁).entered _)
        ⟨agrees₁.documents, agrees₁.coherent⟩ flat plainBlocks
    have back := (place_closed (place_left place₂)).trans place₁
    refine ⟨moved base r₁.ambientLevel inner, r₂.left.closed, ?_,
      ⟨agrees₂.documents, agrees₂.coherent⟩, back, .splice sought inside trivial⟩
    rw [moved, Node.flatten_rebase, expanded, ambientLevel_of_place place₁]
    rfl

/-- An embed is resolved to its replacement, given that what it means is. -/
theorem replaces_of_deeper (faithful : Faithful m load) (plain : m.Plain) {k fuel : Nat}
    (deeper : ∀ k', k = k' + 1 → Expands m load k' fuel) (room : Room k r) (agrees : Agrees m r)
    (link : Link) : Replaces m load k fuel r link := by
  rcases isImage : isImageAddress link.address with _ | _
  · cases k with
    | zero => exact replaces_tooDeep isImage room agrees fuel
    | succ k => exact replaces_note faithful plain (deeper k rfl) isImage room agrees
  · exact replaces_image isImage agrees k fuel

/-- A block that is neither a heading nor an embed is put in front of what the blocks after it
resolve to. -/
theorem Resolves.cons_of_plain {P : AtSplice Memory} {fuel : Nat} {n : Node} {nodes : List Node}
    {out : Resolved} (other : n.level? = none) (noEmbed : ∀ link, n ≠ .embed link)
    (plain : plainItems (n :: blocks) = true) (rest : Resolves load P fuel r nodes out r') :
    ∃ references, Resolves load P fuel r (n :: nodes) ⟨n :: out.nodes, references⟩ r' := by
  cases n with
  | heading level title children => cases other
  | embed link => exact (noEmbed link rfl).elim
  | list kind items =>
    rw [plainItems, List.all_cons, Bool.and_eq_true] at plain
    exact rest.list_of_embedFree plain.1 kind
  | _ => exact ⟨_, .leaf trivial rest⟩

theorem plainItems_tail {n : Node} (plain : plainItems (n :: blocks) = true) :
    plainItems blocks = true :=
  Node.plainItems_of_sublist plain (List.sublist_cons_self n blocks)

/-- A flat list is resolved to its expansion, given that what its embeds mean is. -/
theorem expands_of_deeper (faithful : Faithful m load) (plain : m.Plain) {k fuel : Nat}
    (deeper : ∀ k', k = k' + 1 → Expands m load k' fuel) :
    Expands m load k (fuel + 1) := by
  intro r blocks room agrees flat plainBlocks
  fun_induction nest blocks generalizing r with
  | case1 =>
    refine ⟨.empty, r, .nil, agrees, rfl, ?_⟩
    rw [Memory.expand, Node.substitute_nil]
    exact Node.flatten_nil
  | case2 level title children rest below after =>
    obtain rfl := flat level title children (List.mem_cons_self ..)
    have plainRest := plainItems_tail plainBlocks
    obtain ⟨inner, r₁, inside, agrees₁, place₁, expanded⟩ :=
      below (r.opened ⟨Inline.plainText title, level⟩) room
        ⟨agrees.documents, agrees.coherent⟩ flat.tail.owned
        (Node.plainItems_of_sublist plainRest (List.takeWhile_sublist _))
    have back := place_closed place₁
    obtain ⟨others, r₂, following, agrees₂, place₂, expandedOthers⟩ :=
      after r₁.closed (room.of_place back) ⟨agrees₁.documents, agrees₁.coherent⟩
        flat.tail.unowned (Node.plainItems_of_sublist plainRest (List.dropWhile_sublist _))
    refine ⟨_, r₂, .heading inside following, agrees₂, place₂.trans back, ?_⟩
    -- After the section comes a heading or nothing, so that the level there is free to be the one
    -- outside the section.
    have apart : substitute (m.replacement k) level rest =
        substitute (m.replacement k) level (Node.owned level rest) ++
          substitute (m.replacement k) r.ambientLevel (Node.unowned level rest) := by
      rw [← Node.substitute_append (Node.closes_unowned level rest), Node.owned_append_unowned]
    rw [Memory.expand, Node.substitute_heading, apart]
    change flatten (.heading level title inner.nodes :: others.nodes) = _
    rw [Node.flatten_heading, expanded, expandedOthers, ambientLevel_of_place back]
    rfl
  | case3 n rest heading ih =>
    have other := Node.level?_eq_none heading
    have plainRest := plainItems_tail plainBlocks
    by_cases embed : ∃ link, n = .embed link
    · obtain ⟨link, rfl⟩ := embed
      obtain ⟨first, r₁, replaced, agrees₁, place₁, extend⟩ :=
        replaces_of_deeper faithful plain deeper room agrees link
      obtain ⟨others, r₂, following, agrees₂, place₂, expanded⟩ :=
        ih r₁ (room.of_place place₁) agrees₁ flat.tail plainRest
      refine ⟨_, r₂, extend following, agrees₂, place₂.trans place₁, ?_⟩
      rw [Memory.expand, Node.substitute_embed, ← replaced, Resolved.nodes_append,
        Node.flatten_append, expanded, ambientLevel_of_place place₁]
      rfl
    · have noEmbed : ∀ link, n ≠ .embed link := fun link same => embed ⟨link, same⟩
      obtain ⟨others, r₁, following, agrees₁, place₁, expanded⟩ :=
        ih r room agrees flat.tail plainRest
      obtain ⟨references, whole⟩ := following.cons_of_plain other noEmbed plainBlocks
      refine ⟨_, r₁, whole, agrees₁, place₁, ?_⟩
      rw [Memory.expand, Node.substitute_other other noEmbed, Node.flatten_cons_of_level? other,
        expanded]
      rfl

/-- With as much fuel as embeds may be nested, a flat list is resolved to its expansion. -/
theorem resolves_nest (faithful : Faithful m load) (plain : m.Plain) {k fuel : Nat}
    (enough : k ≤ fuel) : Expands m load k (fuel + 1) := by
  induction k generalizing fuel with
  | zero => exact expands_of_deeper faithful plain nofun
  | succ k ih =>
    obtain ⟨fuel, rfl⟩ : ∃ f, fuel = f + 1 := ⟨fuel - 1, by omega⟩
    refine expands_of_deeper faithful plain fun k' same => ?_
    cases same
    exact ih (Nat.le_of_succ_le_succ enough)

theorem unrollBy_expands (faithful : Faithful m load) (plain : m.Plain) {k : Nat} (room : Room k r)
    (agrees : Agrees m r) (flat : Flat blocks) (plainBlocks : plainItems blocks = true) :
    ∃ resolved r', (unrollBy load (nest blocks)).on r = some (.ok resolved, r') ∧
      flatten resolved.nodes = m.expand k r.ambientLevel blocks := by
  obtain ⟨out, r', derived, -, -, expanded⟩ :=
    resolves_nest faithful plain (Nat.le_refl k) r blocks room agrees flat plainBlocks
  have sameFuel : r.fuel = k + 1 := by
    rw [Resolver.fuel, room, Option.elim_some, Nat.add_sub_cancel_left]
  rw [← sameFuel] at derived
  exact ⟨out, r', derived.on, expanded⟩

/-- Where base names are distinct and no list of a note holds an embed, a run below a heading that
begins with nothing known makes of the forest of a flat list, listed in reading order, the list with
its embeds replaced. -/
theorem unroll_expands (distinct : m.Distinct) (plain : m.Plain) (flat : Flat blocks)
    (plainBlocks : plainItems blocks = true) (limit level : Nat) (title : String) :
    ∃ resolved r',
      (unroll (nest blocks)).on ((initial m .empty (some limit)).opened ⟨title, level⟩) =
        some (.ok resolved, r') ∧
      flatten resolved.nodes = m.expand limit level blocks := by
  have room : Room limit ((initial m .empty (some limit)).opened ⟨title, level⟩) :=
    congrArg some (Nat.zero_add limit).symm
  have agrees : Agrees m ((initial m .empty (some limit)).opened ⟨title, level⟩) :=
    ⟨rfl, Memory.coherent_empty m⟩
  exact unrollBy_expands (faithful_load distinct) plain room agrees flat plainBlocks

/-- A note with a section that has an embed of another note. -/
def partAndLeaf : Memory :=
  ⟨[(⟨"leaf.md"⟩, "# Leaf\n"), (⟨"part.md"⟩, "# Part\n## Inner\n![[leaf]]\n")], [], []⟩

/-- Blocks with embeds of the note and of its section. -/
def partTwice : List Node :=
  [.embed ⟨"part", none, none⟩, .heading 2 [] [], .embed ⟨"part", some "Inner", none⟩]

theorem unroll_expands_partTwice :
    (∃ resolved r',
      (unroll (nest partTwice)).on ((initial partAndLeaf .empty (some 2)).opened ⟨"Top", 1⟩) =
        some (.ok resolved, r') ∧
      flatten resolved.nodes = partAndLeaf.expand 2 1 partTwice) ∧
    (partAndLeaf.expand 2 1 partTwice).filterMap Node.level? = [2, 3, 4, 2, 3] := by
  have distinct : partAndLeaf.Distinct := by decide +kernel
  have plain : partAndLeaf.Plain := by decide +kernel
  have flat : Flat partTwice := by
    intro level title children mem
    simp only [partTwice, List.mem_cons, reduceCtorEq, Node.heading.injEq, List.not_mem_nil,
      or_false, false_or] at mem
    exact mem.2.2
  exact ⟨unroll_expands distinct plain flat rfl 2 1 "Top", by decide +kernel⟩

end Resolver

end Longform
