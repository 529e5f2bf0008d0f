import Longform.Proofs.Acyclic

/-!
# What the notes are held for

A note whose name is known is given as it is known, and any other note as it is
read. `Resolver.held r d` is what the note `d` is held for in this sense. Where
base names are distinct no search changes it, so that a run shows nothing but
what the notes are held for when it begins, the names of the documents, and the
place where it begins.

* `Seeks.offers`: what the notes are held for stays.
* `Seeks.abreast` and `Resolves.abreast`: a search and a run do the same in two
  states which hold those notes for the same that are named by what they meet.
* `embed_abreast`: an embed is resolved alike in two such states.
-/

namespace Longform

namespace Memory

variable {m m' : Memory} {d : Document}

/-- The documents without their texts. -/
def titles (m : Memory) : List Document := m.documents.map (·.1)

theorem find_eq (address : String) (m : Memory) :
    Store.find address m = (Lookup.search address m.titles, m) := rfl

theorem titles_congr (h : m.documents = m'.documents) : m.titles = m'.titles := by
  rw [titles, titles, h]

theorem notes_of_titles (h : m.titles = m'.titles) : m.notes = m'.notes := by
  change m.titles.filter _ = m'.titles.filter _
  rw [h]

theorem distinct_of_titles (distinct : m.Distinct) (h : m'.titles = m.titles) : m'.Distinct := by
  rw [Distinct, notes_of_titles h]
  exact distinct

/-- What is said of a note is said of those that it embeds, taking the notes for what `given`
says. -/
def Closed (m : Memory) (given : Document → Except Error Note) (D : Document → Prop) : Prop :=
  ∀ e ∈ m.notes, D e → ∀ note, given e = .ok note → ∀ d ∈ m.named note.body, D d

end Memory

namespace Resolver

/-! ## Standing alike -/

section Place

variable {σ : Type} {r r' q q' : Resolver σ}

/-- Two resolvers stand below headings of one level, are nested equally deep, and have one limit. -/
structure StandAlike (r q : Resolver σ) : Prop where
  level : r.ambientLevel = q.ambientLevel
  depth : r.depth = q.depth
  limit : r.limit = q.limit

theorem StandAlike.symm (h : StandAlike r q) : StandAlike q r :=
  ⟨h.level.symm, h.depth.symm, h.limit.symm⟩

theorem StandAlike.of_place (h : StandAlike r q) (left : r'.place = r.place)
    (right : q'.place = q.place) : StandAlike r' q' := by
  obtain ⟨-, depth, limit⟩ := place_eq_iff.1 left
  obtain ⟨-, depth', limit'⟩ := place_eq_iff.1 right
  constructor
  · rw [ambientLevel_of_place left, ambientLevel_of_place right, h.level]
  · rw [depth, depth', h.depth]
  · rw [limit, limit', h.limit]

theorem StandAlike.opened (h : StandAlike r q) (frame : Frame) :
    StandAlike (r.opened frame) (q.opened frame) :=
  ⟨rfl, h.depth, h.limit⟩

theorem StandAlike.inside (h : StandAlike r q) (frame : Frame) :
    StandAlike (r.opened frame).entered (q.opened frame).entered :=
  ⟨rfl, congrArg (· + 1) h.depth, h.limit⟩

theorem StandAlike.reachedLimit? (h : StandAlike r q) : r.reachedLimit? = q.reachedLimit? := by
  rw [Resolver.reachedLimit?, Resolver.reachedLimit?, h.depth, h.limit]

end Place

variable {m : Memory} {given : Document → Except Error Note} {D : Document → Prop}
  {w w' : List String} {r r' q q' : Resolver Memory} {d : Document} {link : Link} {t : Target}
  {nodes : List Node} {fuel : Nat} {out : Resolved} {P : AtSplice Memory}

/-! ## Notes -/

/-- What a note is held for: what is known of its name, or else what would be read. -/
def held (r : Resolver Memory) (d : Document) : Except Error Note :=
  (r.cache.find? d.basename).elim (r.store.noteAt d) .ok

theorem held_of_known {note : Note} (known : r.cache.find? d.basename = some note) :
    r.held d = .ok note := by
  rw [held, known, Option.elim_some]

theorem held_of_unknown (unknown : r.cache.find? d.basename = none) :
    r.held d = r.store.noteAt d := by
  rw [held, unknown, Option.elim_none]

theorem Agrees.held (distinct : m.Distinct) (agrees : Agrees m r) (mem : d ∈ m.notes) :
    r.held d = m.noteAt d := by
  rcases known : r.cache.find? d.basename with _ | note
  · rw [held_of_unknown known]
    exact Memory.noteAt_congr agrees.documents d
  · rw [held_of_known known, agrees.coherent.noteAt_eq distinct mem known]

theorem load_held {outcome : Except Error Note} (run : (Step.load d).on r = some (outcome, r')) :
    outcome = r.held d := by
  rcases load_cases run with ⟨_, known, rfl, -⟩ | ⟨unknown, _, read, rfl, -⟩ |
    ⟨unknown, _, read, rfl, -⟩
  · exact (held_of_known known).symm
  · exact read.symm.trans (held_of_unknown unknown).symm
  · exact read.symm.trans (held_of_unknown unknown).symm

/-- Loading a note leaves what every note is held for. -/
theorem held_of_load (distinct : r.store.Distinct) (mem : d ∈ r.store.notes)
    {outcome : Except Error Note} (run : (Step.load d).on r = some (outcome, r')) :
    r'.store.titles = r.store.titles ∧ ∀ e ∈ r.store.notes, r'.held e = r.held e := by
  have same : ∀ e, (r.withStore (Store.read d r.store).2).held e = r.held e := by
    intro e
    have reads : (Store.read d r.store).2.noteAt e = r.store.noteAt e := Memory.noteAt_congr rfl e
    rw [held, held, withStore, reads]
  rcases load_cases run with ⟨_, -, -, rfl⟩ | ⟨-, _, -, -, rfl⟩ | ⟨unknown, note, read, -, rfl⟩
  · exact ⟨rfl, fun _ _ => rfl⟩
  · exact ⟨rfl, fun e _ => same e⟩
  · refine ⟨rfl, fun e among => ?_⟩
    by_cases named : e.basename = d.basename
    · obtain rfl := distinct e among d mem named
      have now : ((r.withStore (Store.read e r.store).2).withNote e.basename note).cache.find?
          e.basename = some note := by
        rw [withNote, Cache.find?_add, if_pos rfl, withStore, unknown, Option.getD_none]
      rw [held_of_known now, held_of_unknown unknown]
      exact read.symm
    · have still : ((r.withStore (Store.read d r.store).2).withNote d.basename note).cache.find?
          e.basename = r.cache.find? e.basename := by
        rw [withNote, Cache.find?_add, if_neg named, withStore]
      rw [held, still]
      exact same e

/-! ## States that hold notes for the same -/

/-- The resolver searches the documents of `m`, whatever their texts are, and holds the notes that
`D` is about for what `given` says. -/
structure Offers (m : Memory) (given : Document → Except Error Note) (D : Document → Prop)
    (r : Resolver Memory) : Prop where
  titles : r.store.titles = m.titles
  held : ∀ d ∈ m.notes, D d → r.held d = given d

/-- The open headings, the depth and the warnings have nothing to do with it. -/
theorem Offers.of_same (h : Offers m given D r) (store : r'.store = r.store)
    (cache : r'.cache = r.cache) : Offers m given D r' := by
  constructor
  · rw [store]
    exact h.titles
  · intro d mem about
    rw [Resolver.held, store, cache]
    exact h.held d mem about

theorem Offers.find (h : Offers m given D r) (address : String) :
    Store.find address r.store = (Lookup.search address m.titles, r.store) := by
  rw [Memory.find_eq, h.titles]

theorem Offers.of_load (h : Offers m given D r) (distinct : m.Distinct) (mem : d ∈ m.notes)
    {outcome : Except Error Note} (run : (Step.load d).on r = some (outcome, r')) :
    Offers m given D r' := by
  have notes := Memory.notes_of_titles h.titles
  obtain ⟨titles, same⟩ :=
    held_of_load (Memory.distinct_of_titles distinct h.titles) (by rw [notes]; exact mem) run
  rw [notes] at same
  exact ⟨titles.trans h.titles, fun e among about => (same e among).trans (h.held e among about)⟩

theorem Agrees.offers (distinct : m.Distinct) (agrees : Agrees m r) :
    Offers m m.noteAt D r := by
  exact ⟨Memory.titles_congr agrees.documents, fun d mem _ => agrees.held distinct mem⟩

/-- An address that names no image finds a note of `m`. -/
theorem Offers.mem_notes {warnings : List String} {store : Memory} (h : Offers m given D r)
    (noImage : isImageAddress link.address = false)
    (found : Store.find link.address r.store = (⟨some d, warnings⟩, store)) :
    store = r.store ∧ d ∈ m.notes ∧ m.noteNamed? link.address = some d := by
  rw [h.find] at found
  obtain ⟨search, rfl⟩ := Prod.mk.inj found
  have names : m.noteNamed? link.address = some d := by
    rw [Memory.noteNamed?_of_noImage noImage, Memory.find_eq, search]
  exact ⟨rfl, Memory.mem_notes_of_noteNamed? names, names⟩

/-- What a search keeps, if it has to do with nothing but the store and the notes that are known,
and if loading the note that the embed names keeps it. -/
theorem Seeks.keepsLoading {I : Resolver Memory → Prop} (sought : Seeks Step.load r link t r')
    (of_same : ∀ {q q' : Resolver Memory}, I q → q'.store = q.store → q'.cache = q.cache → I q')
    (loads : ∀ {d outcome} {q q' : Resolver Memory}, r.reachedLimit? = none →
      r.store.noteNamed? link.address = some d → I q → (Step.load d).on q = some (outcome, q') →
      I q')
    (holds : I r) : I r' := by
  have loading : ∀ {d warnings store outcome r₁}, isImageAddress link.address = false →
      r.reachedLimit? = none → Store.find link.address r.store = (⟨some d, warnings⟩, store) →
      (Step.load d).on (r.searched warnings store) = some (outcome, r₁) → I r₁ := by
    intro d warnings store outcome r₁ noImage free found loaded
    obtain ⟨rfl, -⟩ := Memory.find_of_documents found rfl
    have names : r.store.noteNamed? link.address = some d := by
      rw [Memory.noteNamed?_of_noImage noImage, found]
    have searched : I (r.searched warnings r.store) := of_same holds rfl rfl
    exact loads free names searched loaded
  cases sought with
  | figure _ found =>
    obtain ⟨rfl, -⟩ := Memory.findImage_of_documents found rfl
    exact of_same holds rfl rfl
  | noImage _ found =>
    obtain ⟨rfl, -⟩ := Memory.findImage_of_documents found rfl
    exact of_same holds rfl rfl
  | tooDeep _ _ => exact of_same holds rfl rfl
  | missing _ _ found =>
    obtain ⟨rfl, -⟩ := Memory.find_of_documents found rfl
    exact of_same holds rfl rfl
  | unloadable noImage free found loaded =>
    exact of_same (loading noImage free found loaded) rfl rfl
  | noHeading noImage free found loaded _ =>
    exact of_same (loading noImage free found loaded) rfl rfl
  | content noImage free found loaded _ => exact loading noImage free found loaded

/-- A search leaves what the notes are held for. -/
theorem Seeks.offers (distinct : m.Distinct) (sought : Seeks Step.load r link t r')
    (h : Offers m given D r) : Offers m given D r' := by
  refine sought.keepsLoading Offers.of_same ?_ h
  intro d outcome q q' _ names before loaded
  have mem : d ∈ m.notes := by
    rw [← Memory.notes_of_titles h.titles]
    exact Memory.mem_notes_of_noteNamed? names
  exact before.of_load distinct mem loaded

/-- What the notes are held for stays through searches for any embeds. -/
theorem stable_offers (distinct : m.Distinct) (A : Resolver Memory → Link → Prop) :
    Stable Step.load A (Offers m given D) :=
  ⟨fun _ _ _ h => h.of_same rfl rfl, fun _ sought h => sought.offers distinct h⟩

/-- Two resolvers hold the notes that `D` is about for the same, and have added the same warnings to
`w` and `w'`. -/
structure Abreast (m : Memory) (given : Document → Except Error Note) (D : Document → Prop)
    (w w' : List String) (r q : Resolver Memory) : Prop where
  left : Offers m given D r
  right : Offers m given D q
  warnings : ∃ more, r.warnings = w ++ more ∧ q.warnings = w' ++ more

theorem Abreast.symm (h : Abreast m given D w w' r q) : Abreast m given D w' w q r := by
  obtain ⟨more, left, right⟩ := h.warnings
  exact ⟨h.right, h.left, more, right, left⟩

/-- The open headings and the depth have nothing to do with it. -/
theorem Abreast.anywhere (h : Abreast m given D w w' r q) (frames frames' : List Frame)
    (depth depth' : Nat) :
    Abreast m given D w w' { r with frames, depth }
      { q with frames := frames', depth := depth' } :=
  ⟨h.left.of_same rfl rfl, h.right.of_same rfl rfl, h.warnings⟩

theorem Abreast.warned (h : Abreast m given D w w' r q) (more : List String) :
    Abreast m given D w w' { r with warnings := r.warnings ++ more }
      { q with warnings := q.warnings ++ more } := by
  obtain ⟨before, left, right⟩ := h.warnings
  refine ⟨h.left.of_same rfl rfl, h.right.of_same rfl rfl, before ++ more, ?_, ?_⟩
  · rw [left, List.append_assoc]
  · rw [right, List.append_assoc]

/-- A note that `D` is about is loaded alike. -/
theorem Abreast.load (h : Abreast m given D w w' r q) (distinct : m.Distinct) (mem : d ∈ m.notes)
    (about : D d) {outcome : Except Error Note} {r₁ : Resolver Memory}
    (loaded : (Step.load d).on r = some (outcome, r₁)) :
    ∃ q₁, (Step.load d).on q = some (outcome, q₁) ∧ Abreast m given D w w' r₁ q₁ := by
  obtain ⟨outcome', q₁, loaded'⟩ := total_load d q
  obtain rfl := (load_held loaded).trans (h.left.held d mem about)
  obtain rfl := (load_held loaded').trans (h.right.held d mem about)
  refine ⟨q₁, loaded', h.left.of_load distinct mem loaded,
    h.right.of_load distinct mem loaded', ?_⟩
  rw [warnings_of_load loaded, warnings_of_load loaded']
  exact h.warnings

/-! ## Searches and runs -/

/-- What a search finds is part of a note that the embed names. -/
theorem Seeks.origin (h : Offers m given D r) {frame : Frame} {content : List Node}
    (sought : Seeks Step.load r link (.content frame content) r') :
    ∃ d note, m.noteNamed? link.address = some d ∧ d ∈ m.notes ∧ (D d → given d = .ok note) ∧
      target? link d note = some (frame, content) := by
  cases sought with
  | @content d warnings store note _ _ _ noImage _ found loaded aim =>
    obtain ⟨rfl, mem, names⟩ := h.mem_notes noImage found
    refine ⟨d, note, names, mem, fun about => ?_, aim⟩
    have searched : Offers m given D (r.searched warnings r.store) := h.of_same rfl rfl
    exact (searched.held d mem about).symm.trans (load_held loaded).symm

/-- A search finds the same in two states that hold the note for the same which the embed names. -/
theorem Seeks.abreast (distinct : m.Distinct) (sought : Seeks Step.load r link t r')
    (h : Abreast m given D w w' r q) (alike : StandAlike r q)
    (inside : r.reachedLimit? = none → ∀ d, m.noteNamed? link.address = some d → D d) :
    ∃ q', Seeks Step.load q link t q' ∧ Abreast m given D w w' r' q' := by
  have finds : ∀ {address lookup store}, Store.find address r.store = (lookup, store) →
      store = r.store ∧ Store.find address q.store = (lookup, q.store) := by
    intro address lookup store found
    rw [h.left.find] at found
    cases found
    exact ⟨rfl, h.right.find address⟩
  have loads : ∀ {d warnings store outcome r₁}, isImageAddress link.address = false →
      r.reachedLimit? = none → Store.find link.address r.store = (⟨some d, warnings⟩, store) →
      (Step.load d).on (r.searched warnings store) = some (outcome, r₁) → ∃ q₁,
        (Step.load d).on (q.searched warnings q.store) = some (outcome, q₁) ∧
        Abreast m given D w w' r₁ q₁ := by
    intro d warnings store outcome r₁ noImage free found loaded
    obtain ⟨rfl, mem, names⟩ := h.left.mem_notes noImage found
    exact (h.warned warnings).load distinct mem (inside free d names) loaded
  have free : ∀ {limit}, r.reachedLimit? = limit → q.reachedLimit? = limit :=
    fun reached => alike.reachedLimit?.symm.trans reached
  cases sought with
  | @figure _ warnings _ isImage found =>
    obtain ⟨rfl, found'⟩ := finds found
    exact ⟨_, .figure isImage found', h.warned warnings⟩
  | @noImage warnings _ isImage found =>
    obtain ⟨rfl, found'⟩ := finds found
    exact ⟨_, .noImage isImage found', h.warned warnings⟩
  | tooDeep noImage reached => exact ⟨_, .tooDeep noImage (free reached), h.warned _⟩
  | @missing warnings _ noImage reached found =>
    obtain ⟨rfl, found'⟩ := finds found
    exact ⟨_, .missing noImage (free reached) found', h.warned warnings⟩
  | unloadable noImage reached found loaded =>
    obtain ⟨q₁, loaded', after⟩ := loads noImage reached found loaded
    exact ⟨_, .unloadable noImage (free reached) (finds found).2 loaded', after.warned _⟩
  | noHeading noImage reached found loaded aim =>
    obtain ⟨q₁, loaded', after⟩ := loads noImage reached found loaded
    exact ⟨_, .noHeading noImage (free reached) (finds found).2 loaded' aim, after.warned _⟩
  | content noImage reached found loaded aim =>
    obtain ⟨q₁, loaded', after⟩ := loads noImage reached found loaded
    exact ⟨_, .content noImage (free reached) (finds found).2 loaded' aim, after⟩

/-- The embeds that resolving `nodes` from `r` meets name only notes that `D` is about. -/
def NamesOnly (m : Memory) (D : Document → Prop) (r : Resolver Memory) (nodes : List Node) : Prop :=
  ∀ p link, Meets Step.load r nodes p link → p.reachedLimit? = none →
    ∀ d, m.noteNamed? link.address = some d → D d

section NamesOnly

variable {level : Nat} {title : List Inline} {inner first blocks : List Node} {n : Node}
  {kind : ListKind} {others : List (List Node)} {frame : Frame} {r₁ : Resolver Memory}

theorem NamesOnly.children (names : NamesOnly m D r (.heading level title inner :: nodes)) :
    NamesOnly m D (r.opened ⟨Inline.plainText title, level⟩) inner :=
  fun p link here => names p link here.children

theorem NamesOnly.rest (names : NamesOnly m D r (n :: nodes))
    (alone : Resolves Step.load P fuel r [n] out r₁) : NamesOnly m D r₁ nodes :=
  fun p link here => names p link (here.rest alone.after?)

theorem NamesOnly.after_leaf (names : NamesOnly m D r (n :: nodes)) (isLeaf : Node.IsLeaf n) :
    NamesOnly m D r nodes := by
  have alone : Resolves Step.load Anyhow 0 r [n] (Resolver.leaf n ++ .empty) r := .leaf isLeaf .nil
  exact names.rest alone

theorem NamesOnly.after_noItems (names : NamesOnly m D r (.list kind [] :: nodes)) :
    NamesOnly m D r nodes := by
  have alone : Resolves Step.load Anyhow 0 r [.list kind []] ⟨[.list kind []], .empty⟩ r :=
    .noItems .nil
  exact names.rest alone

theorem NamesOnly.item (names : NamesOnly m D r (.list kind (first :: others) :: nodes)) :
    NamesOnly m D r first :=
  fun p link here => names p link here.item

theorem NamesOnly.items (names : NamesOnly m D r (.list kind (first :: others) :: nodes))
    (ended : Resolves Step.load P fuel r first out r₁) :
    NamesOnly m D r₁ (.list kind others :: nodes) :=
  fun p link here => names p link (here.items ended.after?)

theorem NamesOnly.after_done (names : NamesOnly m D r (.embed link :: nodes)) {put : Resolved}
    (sought : Seeks Step.load r link (.done put) r₁) : NamesOnly m D r₁ nodes := by
  have alone : Resolves Step.load Anyhow 1 r [.embed link] (put ++ .empty) r₁ := .done sought .nil
  exact names.rest alone

theorem NamesOnly.content (names : NamesOnly m D r (.embed link :: nodes))
    (sought : Seeks Step.load r link (.content frame blocks) r₁) :
    NamesOnly m D (r₁.opened frame).entered blocks :=
  fun p link here => names p link (here.content sought)

end NamesOnly

/-- A run does the same in two states that hold those notes for the same which are named by the
embeds that it meets, be it in one of the states or in the other. -/
theorem Resolves.abreast_of_either (distinct : m.Distinct)
    (derived : Resolves Step.load P fuel r nodes out r') (h : Abreast m given D w w' r q)
    (alike : StandAlike r q) (names : NamesOnly m D r nodes ∨ NamesOnly m D q nodes) :
    ∃ q', Resolves Step.load Anyhow fuel q nodes out q' ∧ Abreast m given D w w' r' q' := by
  -- The embed that stands first is met in the state in which the others are, too.
  have inside : ∀ {link nodes} {r q : Resolver Memory}, StandAlike r q →
      NamesOnly m D r (.embed link :: nodes) ∨ NamesOnly m D q (.embed link :: nodes) →
      r.reachedLimit? = none → ∀ d, m.noteNamed? link.address = some d → D d := by
    rintro link nodes r q alike (names | names) free
    · exact names r link .here free
    · exact names q link .here (alike.reachedLimit?.symm.trans free)
  induction derived generalizing q with
  | nil => exact ⟨q, .nil, h⟩
  | heading above _ ihInner ihRest =>
    obtain ⟨q₁, inner, h₁⟩ := ihInner (h.anywhere _ _ _ _) (alike.opened _)
      (names.imp .children .children)
    have back := alike.of_place (place_closed (above.place staysAt_load))
      (place_closed (inner.place staysAt_load))
    obtain ⟨q₂, rest, h₂⟩ := ihRest (h₁.anywhere _ _ _ _) back
      (names.imp (·.rest (.heading above .nil)) (·.rest (.heading inner .nil)))
    exact ⟨q₂, .heading inner rest, h₂⟩
  | leaf isLeaf _ ih =>
    obtain ⟨q₁, rest, h₁⟩ := ih h alike
      (names.imp (·.after_leaf isLeaf) (·.after_leaf isLeaf))
    exact ⟨q₁, .leaf isLeaf rest, h₁⟩
  | noItems _ ih =>
    obtain ⟨q₁, rest, h₁⟩ := ih h alike
      (names.imp (·.after_noItems) (·.after_noItems))
    exact ⟨q₁, .noItems rest, h₁⟩
  | item first _ ihItem ihRest =>
    obtain ⟨q₁, item, h₁⟩ := ihItem h alike (names.imp .item .item)
    have back := alike.of_place (first.place staysAt_load) (item.place staysAt_load)
    obtain ⟨q₂, rest, h₂⟩ := ihRest h₁ back (names.imp (·.items first) (·.items item))
    exact ⟨q₂, .item item rest, h₂⟩
  | done sought _ ih =>
    obtain ⟨q₁, sought', h₁⟩ := sought.abreast distinct h alike (inside alike names)
    have back := alike.of_place (sought.place staysAt_load) (sought'.place staysAt_load)
    obtain ⟨q₂, rest, h₂⟩ := ih h₁ back
      (names.imp (·.after_done sought) (·.after_done sought'))
    exact ⟨q₂, .done sought' rest, h₂⟩
  | splice sought within atSplice _ ihInner ihRest =>
    obtain ⟨q₁, sought', h₁⟩ := sought.abreast distinct h alike (inside alike names)
    have here := alike.of_place (sought.place staysAt_load) (sought'.place staysAt_load)
    obtain ⟨q₂, inner, h₂⟩ := ihInner (h₁.anywhere _ _ _ _) (here.inside _)
      (names.imp (·.content sought) (·.content sought'))
    have back := here.of_place (place_closed (place_left (within.place staysAt_load)))
      (place_closed (place_left (inner.place staysAt_load)))
    obtain ⟨q₃, rest, h₃⟩ := ihRest (h₂.anywhere _ _ _ _) back
      (names.imp (·.rest (.splice sought within atSplice .nil))
        (·.rest (.splice sought' inner trivial .nil)))
    rw [here.level]
    exact ⟨q₃, .splice sought' inner trivial rest, h₃⟩

theorem Resolves.abreast (distinct : m.Distinct)
    (derived : Resolves Step.load P fuel r nodes out r') (h : Abreast m given D w w' r q)
    (alike : StandAlike r q)
    (met : ∀ p link, Meets Step.load r nodes p link → p.reachedLimit? = none →
      ∀ d, m.noteNamed? link.address = some d → D d) :
    ∃ q', Resolves Step.load Anyhow fuel q nodes out q' ∧ Abreast m given D w w' r' q' :=
  derived.abreast_of_either distinct h alike (.inl met)

/-! ## Embeds -/

/-- What is said of the notes that a call names is said of those that its calls name. -/
theorem Calls.about (distinct : m.Distinct) (closed : m.Closed given D) {c c' : Call}
    (step : Calls Step.load (r, c) (q, c')) (h : Offers m given D r)
    (inside : ∀ d ∈ m.named c.blocks, D d) :
    Offers m given D q ∧ ∀ d ∈ m.named c'.blocks, D d := by
  refine ⟨step.keepsMeeting (stable_offers distinct fun _ _ => True) (fun _ _ _ => trivial) h, ?_⟩
  intro d mem
  rcases step.links_subset with part | ⟨link, frame, content, _, rfl, rfl, sought⟩
  · exact inside d (Memory.named_subset part mem)
  · obtain ⟨e, note, names, among, holds, aim⟩ := sought.origin h
    have about := inside e (Memory.mem_named_embed.2 names)
    exact closed e among about note (holds about) d
      (Memory.named_subset (links_subset_of_target? aim) mem)

/-- It is said of every note that an embed names which is met. -/
theorem Meets.about (distinct : m.Distinct) (closed : m.Closed given D) (h : Offers m given D r)
    (inside : ∀ d ∈ m.named nodes, D d) (met : Meets Step.load r nodes q link) :
    ∀ d, m.noteNamed? link.address = some d → D d := by
  have holds := met.along (J := fun q c => Offers m given D q ∧ ∀ d ∈ m.named c.blocks, D d)
    (fun step before => step.about distinct closed before.1 before.2) ⟨h, inside⟩
  exact fun d names => holds.2 d (Memory.mem_named_embed.2 names)

/-- An embed that has an outcome has it in any state that holds the notes for the same which the
embed comes to. -/
theorem embed_on_abreast (distinct : m.Distinct) (closed : m.Closed given D)
    (h : Abreast m given D w w' r q) (alike : StandAlike r q)
    (inside : ∀ d, m.noteNamed? link.address = some d → D d) {outcome : Except Error Resolved}
    (run : (embed Step.load fuel link).on r = some (outcome, r')) :
    ∃ q', (embed Step.load fuel link).on q = some (outcome, q') := by
  obtain ⟨first, rfl, extend⟩ := embed_sound fuel run
  obtain ⟨q', derived, -⟩ := (extend .nil).abreast distinct h alike fun p link' met _ =>
    met.about distinct closed h.left fun d mem => inside d (Memory.mem_named_embed.1 mem)
  obtain ⟨first', q₁, rest, head, tail, same⟩ := of_walk_cons_on derived.on
  cases tail
  rw [Resolved.append_empty, Resolved.append_empty] at same
  rw [same]
  exact ⟨_, head⟩

/-- An embed is resolved to the same, or has no outcome, in two states that hold the notes for the
same which it comes to. -/
theorem embed_abreast (distinct : m.Distinct) (closed : m.Closed given D)
    (left : Offers m given D r) (right : Offers m given D q) (alike : StandAlike r q)
    (inside : ∀ d, m.noteNamed? link.address = some d → D d) (fuel : Nat) :
    ((embed Step.load fuel link).on r).map (·.1) =
      ((embed Step.load fuel link).on q).map (·.1) := by
  have h : Abreast m given D r.warnings q.warnings r q :=
    ⟨left, right, [], (List.append_nil _).symm, (List.append_nil _).symm⟩
  refine map_eq_map_of_transfer ?_ ?_
  · rintro ⟨outcome, r'⟩ run
    obtain ⟨q', run'⟩ := embed_on_abreast distinct closed h alike inside run
    exact ⟨_, run', rfl⟩
  · rintro ⟨outcome, q'⟩ run
    obtain ⟨r', run'⟩ := embed_on_abreast distinct closed h.symm alike.symm inside run
    exact ⟨_, run', rfl⟩

end Resolver

end Longform
