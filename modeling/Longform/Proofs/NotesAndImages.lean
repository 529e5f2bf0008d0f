import Longform.Proofs.Held
import Longform.Proofs.LetterCase
import Longform.Proofs.ReadingOrder
import Longform.Store.Vault

/-!
# Notes and images

Whether an address names an image is told from its extension by the resolver,
then for a drawing by the extension of the picture that is looked for in its
place, and once more by the search, which compares the last piece of the address
with the names of documents. These agree for all addresses that do not end in a
slash.

* `Store.Sorts`: an address that names no image finds notes only, and one that
  names an image finds images only.
* `Resolves.shownBy`: every file that a run refers to is found for an embed of an
  image that it meets.
* `stable_readsNotes`: whatever embeds a run meets, it reads notes only.
* `Meets.of_links`: an embed that is met stands in the blocks that a run begins
  with, in a known note or in a note of the store.
* `notes_and_images_apart` puts these together, and `note_shown_as_image` shows
  that the notes of the store have to be counted in.
-/

namespace Longform

open Text

/-! ## Names of documents -/

namespace Path

variable {path name : String}

/-- A file name is a name. -/
theorem isName_of_fileName? (named : fileName? path = some name) : IsName name := by
  rw [fileName?_eq] at named
  obtain ⟨component, last, named⟩ := Option.bind_eq_some_iff.1 named
  obtain ⟨piece, among, stands⟩ := List.mem_filterMap.1 (List.mem_of_getLast? last)
  have noSlash := notMem_of_mem_splitOn among
  rw [component?] at stands
  split at stands
  · cases stands
  · next notIdle =>
    rw [not_or] at notIdle
    split at stands
    · cases stands
      cases named
    · next notUp =>
      cases stands
      cases named
      rw [← String.toList_ofList (l := piece)] at notIdle notUp noSlash
      exact ⟨notIdle.1, notIdle.2, notUp, noSlash⟩

/-- The file name of a path is its last piece, if that is a name. -/
theorem fileName?_of_lastPiece (last : LastPiece path.toList name.toList) (isName : IsName name) :
    fileName? path = some name := by
  obtain ⟨folders, pieces⟩ := last.splitOn
  rw [fileName?_eq, pieces, List.filterMap_append, List.filterMap_cons,
    component?_of_isName isName]
  simp [Component.name?]

theorem IsName.fileName? (isName : IsName name) : fileName? name = some name :=
  fileName?_of_lastPiece ⟨isName.noSlash, .inl rfl⟩ isName

/-- A name in other letters is a name. -/
theorem IsName.of_eqIgnoringAsciiCase {other : String} (isName : IsName name)
    (same : eqIgnoringAsciiCase name.toList other.toList = true) : IsName other := by
  have dots : ∀ {dots : List Char}, (∀ c ∈ dots, c.toNat < 65) → other.toList = dots →
      name.toList = dots := by
    intro dots noLetter whole
    rw [whole] at same
    exact eq_of_eqIgnoringAsciiCase noLetter same
  constructor
  · exact fun empty => isName.ne_nil (dots (List.forall_mem_nil _) empty)
  · exact fun here => isName.ne_here (dots (List.all_iff_forall_prop.1 (by decide)) here)
  · exact fun up => isName.ne_up (dots (List.all_iff_forall_prop.1 (by decide)) up)
  · rw [eqIgnoringAsciiCase_comm] at same
    exact fun slash => isName.noSlash (mem_of_eqIgnoringAsciiCase (by decide) same slash)

end Path

namespace Document

/-- The name of the document has the given extension, in any ASCII case: it ends in a dot and the
extension, and something stands before the dot. -/
def EndsWith (d : Document) (extension : String) : Prop :=
  ∃ stem ending, stem ≠ [] ∧ d.name.toList = stem ++ '.' :: ending ∧
    eqIgnoringAsciiCase ending extension.toList = true

/-- The name of the document is that of a note. -/
def IsNote (d : Document) : Prop := d.EndsWith "md"

/-- The name of the document is that of an image. -/
def IsImage (d : Document) : Prop := ∃ extension ∈ imageExtensions, d.EndsWith extension

variable {d : Document} {extension : String}

theorem isName_name (named : d.name ≠ "") : Path.IsName d.name := by
  rw [name] at named ⊢
  rcases file : Path.fileName? d.path with _ | name
  · rw [file] at named
    exact absurd rfl named
  · exact Path.isName_of_fileName? file

theorem endsWith_of_cutExtension {ending : List Char}
    (cut : (Path.cutExtension d.name.toList).2 = some ending)
    (same : eqIgnoringAsciiCase ending extension.toList = true) : d.EndsWith extension := by
  obtain ⟨stem, before, whole, -, -⟩ := Path.cutExtension_eq_some_iff.1 cut
  exact ⟨stem, ending, before, whole, same⟩

/-- The name of a document has the extension that it is said to have. -/
theorem endsWith_of_hasExtension (has : hasExtension d.name extension = true) :
    d.EndsWith extension := by
  obtain ⟨e, found, same⟩ := Path.hasExtension_iff_exists.1 has
  have named : d.name ≠ "" := by
    intro none
    have nothing : Path.extension? "" = Option.none := by decide +kernel
    rw [none, nothing] at found
    cases found
  have cut := Path.cutExtension_of_fileName? (isName_name named).fileName? found
  exact endsWith_of_cutExtension cut same

theorem cutExtension_of_endsWith (isWord : Path.IsWord extension) (ends : d.EndsWith extension) :
    ∃ ending, (Path.cutExtension d.name.toList).2 = some ending ∧
      ending.map Char.toLower = extension.toList := by
  obtain ⟨stem, ending, before, whole, same⟩ := ends
  rw [eqIgnoringAsciiCase_iff, isWord.map_toLower] at same
  exact ⟨ending, whole ▸ isWord.cutExtension before same, same⟩

/-- No document is a note and an image. -/
theorem IsNote.not_isImage (note : d.IsNote) : ¬ d.IsImage := by
  rintro ⟨extension, among, ends⟩
  have isWord : Path.IsWord "md" := ⟨by decide, List.all_iff_forall_prop.1 (by decide)⟩
  obtain ⟨ending, cut, same⟩ := cutExtension_of_endsWith isWord note
  obtain ⟨ending', cut', same'⟩ :=
    cutExtension_of_endsWith (Path.isWord_of_mem_imageExtensions among) ends
  cases cut.symm.trans cut'
  have word : extension = "md" := String.toList_inj.1 (same'.symm.trans same)
  rw [word] at among
  exact absurd among (by decide)

end Document

/-! ## Searches -/

namespace Lookup

variable {address : String} {documents : List Document} {d : Document}

/-- What is found is called as the address says. -/
theorem called_of_found (found : (search address documents).found = some d) :
    Called address d := by
  rw [found_search] at found
  have fits : matchesAddress address (isImageAddress address) d = true := List.find?_some found
  exact (Bool.and_eq_true_iff.1 fits).1

/-- An address that names no image finds notes only. -/
theorem isNote_of_found (noImage : isImageAddress address = false)
    (found : (search address documents).found = some d) : d.IsNote := by
  have called := called_of_found found
  rw [Called, noImage, matchesLeaf, if_neg Bool.false_ne_true, Bool.and_eq_true_iff] at called
  exact Document.endsWith_of_hasExtension called.1

/-- If the last piece of an address is the name of a document in other letters, it is the file name
of the address. -/
theorem exists_fileName (some : (parts address).2 ≠ [])
    (same : eqIgnoringAsciiCase d.name.toList (parts address).2 = true) :
    ∃ name, Path.fileName? address = .some name ∧
      eqIgnoringAsciiCase name.toList d.name.toList = true := by
  have named : d.name ≠ "" := by
    intro none
    rw [none, eqIgnoringAsciiCase_comm] at same
    exact some (eq_of_eqIgnoringAsciiCase (List.forall_mem_nil _) same)
  have piece := lastPiece_parts address
  rw [← String.toList_ofList (l := (parts address).2)] at same piece
  have isName := (Document.isName_name named).of_eqIgnoringAsciiCase same
  rw [eqIgnoringAsciiCase_comm] at same
  exact ⟨_, Path.fileName?_of_lastPiece piece isName, same⟩

/-- An address of an image without a slash behind it finds images only. -/
theorem isImage_of_found (image : isImageAddress address = true)
    (closed : endsIn (· == '/') address.toList = false)
    (found : (search address documents).found = some d) : d.IsImage := by
  have called := called_of_found found
  rw [Called, image, matchesLeaf, if_pos rfl] at called
  have nonempty : address ≠ "" := by
    rintro rfl
    exact absurd image (by decide +kernel)
  obtain ⟨name, file, same⟩ := exists_fileName (parts_ne_nil nonempty closed) called
  obtain ⟨extension, among, has⟩ := List.any_eq_true.1 image
  obtain ⟨e, ending, alike⟩ := Path.hasExtension_iff_exists.1 has
  have cut := Path.cutExtension_of_fileName? file ending
  have proper : e.toList ≠ [] := by
    intro empty
    rw [empty, eqIgnoringAsciiCase_iff] at alike
    exact (Path.isWord_of_mem_imageExtensions among).nonempty (List.map_eq_nil_iff.1 alike.symm)
  obtain ⟨own, ownCut, ownAlike⟩ :=
    Path.exists_cutExtension_of_eqIgnoringAsciiCase same cut proper
  refine ⟨extension, among, Document.endsWith_of_cutExtension ownCut ?_⟩
  rw [eqIgnoringAsciiCase_iff] at alike ownAlike ⊢
  exact ownAlike.symm.trans alike

end Lookup

/-- In the store an address that names no image finds notes only, and an image is found only for
what is one, unless the address ends in a slash. -/
structure Store.Sorts (σ : Type) [Store σ] : Prop where
  note : ∀ (s : σ) (address : String) (d : Document), isImageAddress address = false →
    (Store.find address s).1.found = some d → d.IsNote
  image : ∀ (s : σ) (address : String) (d : Document), isImageAddress address = true →
    endsIn (· == '/') address.toList = false →
    (Store.findImage address s).1.found = some d → d.IsImage

theorem endsIn_slash_pictureAddress {address : String}
    (closed : endsIn (· == '/') address.toList = false) :
    endsIn (· == '/') (pictureAddress address).toList = false := by
  rw [pictureAddress]
  split
  · rw [String.toList_append, endsIn_append (by decide)]
    rfl
  · exact closed

/-- A store sorts if it searches some list of documents for an address. -/
theorem Store.sorts_of_search {σ : Type} [Store σ]
    (searches : ∀ (s : σ) address, ∃ documents,
      (Store.find address s).1 = Lookup.search address documents) : Store.Sorts σ := by
  constructor
  · intro s address d noImage found
    obtain ⟨documents, same⟩ := searches s address
    rw [same] at found
    exact Lookup.isNote_of_found noImage found
  · intro s address d image closed found
    change (Store.find (pictureAddress address) s).1.found = some d at found
    obtain ⟨documents, same⟩ := searches s (pictureAddress address)
    rw [same] at found
    have single : isOpenDrawing address = false := by rw [isOpenDrawing, closed, Bool.and_false]
    exact Lookup.isImage_of_found (isImageAddress_pictureAddress image single)
      (endsIn_slash_pictureAddress closed) found

theorem Memory.sorts : Store.Sorts Memory := Store.sorts_of_search fun _ _ => ⟨_, rfl⟩

theorem Vault.sorts : Store.Sorts Vault := Store.sorts_of_search fun _ _ => ⟨_, rfl⟩

namespace Memory

variable {m : Memory} {d : Document}

/-- The links of the embeds in the notes of a store. -/
def links (m : Memory) : List Link :=
  m.documents.flatMap fun (_, text) =>
    match Note.parse text with
    | .ok note => Node.links note.body
    | .error _ => []

theorem links_subset_of_noteAt {note : Note} (holds : m.noteAt d = .ok note) :
    Node.links note.body ⊆ m.links := by
  change ((m.get? d).elim (Except.error (Error.notFound d.path)) Except.ok).bind Note.parse =
    .ok note at holds
  rcases got : m.get? d with _ | text
  · rw [got] at holds
    cases holds
  · have parsed : Note.parse text = .ok note := by
      rw [got] at holds
      exact holds
    obtain ⟨⟨e, _⟩, found, rfl⟩ := Option.map_eq_some_iff.1 got
    intro l mem
    refine List.mem_flatMap.2 ⟨_, List.mem_of_find?_eq_some found, ?_⟩
    dsimp only at parsed ⊢
    rw [parsed]
    exact mem

end Memory

namespace Resolver

/-! ## Images that a run puts in -/

section Images

variable {σ : Type} [Store σ] {load : Document → Step σ Note} {P : AtSplice σ} {fuel : Nat}
  {r r' q : Resolver σ} {link : Link} {nodes nodes' : List Node} {out : Resolved}
  {file : Document}

/-- The file is found for an embed of an image that resolving `nodes` from `r` meets. -/
def ShownBy (load : Document → Step σ Note) (r : Resolver σ) (nodes : List Node)
    (file : Document) : Prop :=
  ∃ q link, Meets load r nodes q link ∧ isImageAddress link.address = true ∧
    (Store.findImage link.address q.store).1.found = some file

theorem ShownBy.mono (shown : ShownBy load r' nodes' file)
    (more : ∀ {q link}, Meets load r' nodes' q link → Meets load r nodes q link) :
    ShownBy load r nodes file := by
  obtain ⟨q, link, met, found⟩ := shown
  exact ⟨q, link, more met, found⟩

/-- The only file that one search puts in is the image that it finds. -/
theorem Seeks.found_of_done {first : Resolved} (sought : Seeks load r link (.done first) r')
    (mem : file ∈ first.references.mediaFiles) :
    isImageAddress link.address = true ∧
      (Store.findImage link.address r.store).1.found = some file := by
  cases sought with
  | figure image found =>
    obtain rfl := List.mem_singleton.1 mem
    exact ⟨image, by rw [found]⟩
  | noImage _ _ => cases mem
  | tooDeep _ _ => cases mem
  | missing _ _ _ => cases mem
  | unloadable _ _ _ _ => cases mem
  | noHeading _ _ _ _ _ => cases mem

/-- Every file that a run refers to is found for an embed of an image that it meets. -/
theorem Resolves.shownBy (derived : Resolves load P fuel r nodes out r') :
    ∀ file ∈ out.references.mediaFiles, ShownBy load r nodes file := by
  intro file mem
  induction derived with
  | nil => cases mem
  | heading inside _ ihInner ihRest =>
    have ended := (Resolves.heading inside .nil).after?
    rcases List.mem_append.1 mem with inner | rest
    · exact (ihInner inner).mono (·.children)
    · exact (ihRest rest).mono (·.rest ended)
  | @leaf fuel n _ _ r _ isLeaf _ ih =>
    have alone : Resolves load Anyhow fuel r [n] (Resolver.leaf n ++ .empty) r :=
      .leaf isLeaf .nil
    exact (ih mem).mono (·.rest alone.after?)
  | @noItems fuel kind _ _ r _ _ ih =>
    have alone : Resolves load Anyhow fuel r [.list kind []] ⟨[.list kind []], .empty⟩ r :=
      .noItems .nil
    exact (ih mem).mono (·.rest alone.after?)
  | item inside _ ihItem ihRest =>
    rcases List.mem_append.1 mem with first | rest
    · exact (ihItem first).mono (·.item)
    · exact (ihRest rest).mono (·.items inside.after?)
  | @done fuel link _ first _ r r₁ _ sought _ ih =>
    have alone : Resolves load Anyhow (fuel + 1) r [.embed link] (first ++ .empty) r₁ :=
      .done sought .nil
    rcases List.mem_append.1 mem with here | rest
    · obtain ⟨image, found⟩ := sought.found_of_done here
      exact ⟨r, link, .here, image, found⟩
    · exact (ih rest).mono (·.rest alone.after?)
  | splice sought inside atSplice _ ihInner ihRest =>
    have ended := (Resolves.splice sought inside atSplice .nil).after?
    rcases List.mem_append.1 mem with inner | rest
    · exact (ihInner inner).mono (·.content sought)
    · exact (ihRest rest).mono (·.rest ended)

end Images

/-! ## Notes that a run reads -/

variable {fuel : Nat} {r r' q : Resolver Memory} {link : Link} {nodes : List Node} {out : Resolved}

/-- What was read between two states are notes. -/
def ReadsNotes (r q : Resolver Memory) : Prop :=
  ∃ reads, q.store.reads = r.store.reads ++ reads ∧ ∀ d ∈ reads, d.IsNote

theorem ReadsNotes.refl (r : Resolver Memory) : ReadsNotes r r :=
  ⟨[], (List.append_nil _).symm, List.forall_mem_nil _⟩

theorem ReadsNotes.of_load (before : ReadsNotes r q) {d : Document} (isNote : d.IsNote)
    {outcome : Except Error Note} (run : (Step.load d).on q = some (outcome, r')) :
    ReadsNotes r r' := by
  have more : ReadsNotes r (q.withStore (Store.read d q.store).2) := by
    obtain ⟨reads, appended, notes⟩ := before
    refine ⟨reads ++ [d], ?_, List.forall_mem_append.2 ⟨notes, List.forall_mem_singleton.2 isNote⟩⟩
    change q.store.reads ++ [d] = _
    rw [appended, List.append_assoc]
  rcases load_cases run with ⟨_, -, -, rfl⟩ | ⟨-, _, -, -, rfl⟩ | ⟨-, _, -, -, rfl⟩
  · exact before
  · exact more
  · exact more

/-- Whatever embed it is for, a search reads nothing but notes. -/
theorem stable_readsNotes (r : Resolver Memory) :
    Stable Step.load (fun _ _ => True) (ReadsNotes r) := by
  constructor
  · exact fun _ _ _ before => before
  · intro q link t q' _ sought before
    refine sought.keepsLoading (fun before store _ => ?_) (fun _ names before loaded => ?_) before
    · rwa [ReadsNotes, store]
    · obtain ⟨noImage, found⟩ := Memory.noteNamed?_eq_some_iff.1 names
      exact before.of_load (Memory.sorts.note _ _ _ noImage found) loaded

/-! ## The embeds that can be met -/

/-- All links of embeds in a note are as `A` says. -/
abbrev OnlyLinks (A : Link → Prop) (note : Note) : Prop := ∀ l ∈ Node.links note.body, A l

/-- The store holds the texts of `m`, and the embeds of the notes that are known are as `A` says. -/
structure KnowsOnly (m : Memory) (A : Link → Prop) (r : Resolver Memory) : Prop where
  documents : r.store.documents = m.documents
  known : r.cache.Every (OnlyLinks A)

variable {A : Link → Prop} {m : Memory} {d : Document}

theorem KnowsOnly.of_load (h : KnowsOnly m A r) (stored : ∀ l ∈ m.links, A l)
    {outcome : Except Error Note} (run : (Step.load d).on r = some (outcome, r')) :
    KnowsOnly m A r' ∧ ∀ note, outcome = .ok note → OnlyLinks A note := by
  have read : ∀ note, (Store.read d r.store).1.bind Note.parse = .ok note → OnlyLinks A note := by
    intro note parsed l mem
    have holds : m.noteAt d = .ok note := (Memory.noteAt_congr h.documents d).symm.trans parsed
    exact stored l (Memory.links_subset_of_noteAt holds mem)
  obtain ⟨known, loaded⟩ := every_of_load_of_read read run h.known
  refine ⟨⟨?_, known⟩, loaded⟩
  rcases load_cases run with ⟨_, -, -, rfl⟩ | ⟨-, _, -, -, rfl⟩ | ⟨-, _, -, -, rfl⟩
  · exact h.documents
  · exact h.documents
  · exact h.documents

theorem stable_knowsOnly (stored : ∀ l ∈ m.links, A l) :
    Stable Step.load (fun _ _ => True) (KnowsOnly m A) := by
  constructor
  · exact fun _ _ _ h => ⟨h.documents, h.known⟩
  · intro q link t q' _ sought h
    refine sought.keepsLoading (fun before store cache => ?_) (fun _ _ before loaded => ?_) h
    · exact ⟨by rw [store, before.documents], by rw [cache]; exact before.known⟩
    · exact (before.of_load stored loaded).1

/-- The embeds in the blocks that a search finds are as `A` says. -/
theorem Seeks.links_of_content (stored : ∀ l ∈ m.links, A l) (h : KnowsOnly m A r)
    {frame : Frame} {content : List Node}
    (sought : Seeks Step.load r link (.content frame content) r') :
    ∀ l ∈ Node.links content, A l := by
  cases sought with
  | @content d warnings store note _ _ _ _ _ found loaded aim =>
    obtain ⟨rfl, -⟩ := Memory.find_of_documents found rfl
    have searched : KnowsOnly m A (r.searched warnings r.store) := ⟨h.documents, h.known⟩
    have only := (searched.of_load stored loaded).2 note rfl
    exact fun l mem => only l (links_subset_of_target? aim mem)

/-- A call works on embeds of its caller, or on those of a note. -/
theorem Calls.knowsOnly (stored : ∀ l ∈ m.links, A l) {c c' : Call}
    (step : Calls Step.load (r, c) (q, c')) (h : KnowsOnly m A r)
    (inside : ∀ l ∈ Node.links c.blocks, A l) :
    KnowsOnly m A q ∧ ∀ l ∈ Node.links c'.blocks, A l := by
  refine ⟨step.keepsMeeting (stable_knowsOnly stored) (fun _ _ _ => trivial) h, fun l mem => ?_⟩
  rcases step.links_subset with part | ⟨link, frame, content, _, rfl, rfl, sought⟩
  · exact inside l (part mem)
  · exact sought.links_of_content stored h l mem

/-- An embed that is met stands in the blocks that the run begins with, in a known note, or in a
note of the store. -/
theorem Meets.of_links (start : ∀ l ∈ Node.links nodes, A l)
    (known : ∀ name note, r.cache.find? name = some note → ∀ l ∈ Node.links note.body, A l)
    (stored : ∀ l ∈ r.store.links, A l) (met : Meets Step.load r nodes q link) : A link := by
  have holds := met.along
    (J := fun q c => KnowsOnly r.store A q ∧ ∀ l ∈ Node.links c.blocks, A l)
    (fun step before => step.knowsOnly stored before.1 before.2) ⟨⟨rfl, known⟩, start⟩
  refine holds.2 link ?_
  simp [Call.blocks, Node.links, Node.linksOne]

/-! ## Runs -/

/-- Notes and images stay apart, in a store and in runs. No document is both. An address that names
no image finds notes only, and an address of an image without a slash behind it finds images only.
Whatever a run begins with, it has read notes only, at the end and wherever an embed is met. And
where it begins with blocks without images and with notes that were read, and meets no embed of an
address with a slash behind it, every file that its blocks show or that they are said to refer to is
an image. -/
theorem notes_and_images_apart :
    (∀ d : Document, d.IsNote → ¬ d.IsImage) ∧ Store.Sorts Memory ∧ Store.Sorts Vault ∧
    ∀ (r : Resolver Memory) (nodes : List Node),
      (∀ outcome r', (unroll nodes).on r = some (outcome, r') →
        ∃ out, outcome = .ok out ∧ Unrolls r nodes out r') ∧
      (∀ q link, Meets Step.load r nodes q link → ReadsNotes r q) ∧
      (∀ out r', Unrolls r nodes out r' → ReadsNotes r r') ∧
      (Node.figureFiles nodes = [] →
        (∀ name note, r.cache.find? name = some note → ∃ text, Note.parse text = .ok note) →
        (∀ q link, Meets Step.load r nodes q link →
          endsIn (· == '/') link.address.toList = false) →
        ∀ out r', Unrolls r nodes out r' →
          (∀ file ∈ Node.figureFiles out.nodes, file.IsImage) ∧
            ∀ file ∈ out.references.mediaFiles, file.IsImage) := by
  refine ⟨fun _ => Document.IsNote.not_isImage, Memory.sorts, Vault.sorts,
    fun r nodes => ⟨?_, ?_, ?_, ?_⟩⟩
  · exact fun outcome r' run => Unrolls.of_on run
  · intro q link met
    exact met.keepsMeeting (stable_readsNotes r) (fun _ _ _ => trivial) (.refl r)
  · intro out r' unrolls
    obtain ⟨fuel, derived⟩ := unrolls.exists_resolves
    exact derived.keepsMeeting (stable_readsNotes r) (fun _ _ _ => trivial) (.refl r)
  · intro figureless parsed closed out r' unrolls
    obtain ⟨fuel, derived⟩ := unrolls.exists_resolves
    have known : r.cache.Every Note.Figureless := by
      intro name note found
      obtain ⟨text, read⟩ := parsed name note found
      exact Note.figureFiles_body read
    have images : ∀ file ∈ out.references.mediaFiles, file.IsImage := by
      intro file mem
      obtain ⟨q, link, met, image, found⟩ := derived.shownBy file mem
      exact Memory.sorts.image _ _ _ image (closed q link met) found
    refine ⟨?_, images⟩
    rw [derived.references_out known figureless] at images
    exact images

/-- A note with a picture and with the picture of a drawing, in folders and in other letters. -/
def pictured : Memory :=
  ⟨[(⟨"img/Chart.PNG"⟩, ""), (⟨"img/plan.excalidraw.png"⟩, ""),
    (⟨"notes/Part.MD"⟩, "# Part\n![[img/chart.png]]\n- ![[plan.excalidraw]]\n")], [], []⟩

theorem notes_and_images_apart_pictured :
    (Store.findImage "Plan.Excalidraw" pictured).1.found = some ⟨"img/plan.excalidraw.png"⟩ ∧
      Document.IsImage ⟨"img/plan.excalidraw.png"⟩ ∧
    ∃ out r', (unroll [.embed ⟨"notes/part", none, none⟩]).on (initial pictured .empty none) =
        some (.ok out, r') ∧
      r'.store.reads = [⟨"notes/Part.MD"⟩] ∧ Document.IsNote ⟨"notes/Part.MD"⟩ ∧
      Node.figureFiles out.nodes = [⟨"img/Chart.PNG"⟩, ⟨"img/plan.excalidraw.png"⟩] ∧
      ∀ file ∈ Node.figureFiles out.nodes, file.IsImage := by
  obtain ⟨-, memory, -, runs⟩ := notes_and_images_apart
  have found : (Store.findImage "Plan.Excalidraw" pictured).1.found =
      some ⟨"img/plan.excalidraw.png"⟩ := by decide +kernel
  refine ⟨found, memory.image _ _ _ (by decide +kernel) (by decide +kernel) found, ?_⟩
  obtain ⟨ended, -, reads, figures⟩ := runs (initial pictured .empty none)
    [.embed ⟨"notes/part", none, none⟩]
  have shows : ((unroll [.embed ⟨"notes/part", none, none⟩]).on
      (initial pictured .empty none)).bind (fun p => p.1.toOption.map fun out =>
        (p.2.store.reads, Node.figureFiles out.nodes)) =
      some ([⟨"notes/Part.MD"⟩], [⟨"img/Chart.PNG"⟩, ⟨"img/plan.excalidraw.png"⟩]) := by
    decide +kernel
  obtain ⟨⟨outcome, r'⟩, run, shown⟩ := Option.bind_eq_some_iff.1 shows
  obtain ⟨out, rfl, unrolls⟩ := ended outcome r' run
  obtain ⟨read, files⟩ := Prod.mk.inj (Option.some.inj shown)
  have closed : ∀ q link, Meets Step.load (initial pictured .empty none)
      [.embed ⟨"notes/part", none, none⟩] q link →
        endsIn (· == '/') link.address.toList = false := by
    intro q link met
    exact met.of_links (A := fun link => endsIn (· == '/') link.address.toList = false)
      (by decide +kernel) (fun _ _ found => by cases found) (by decide +kernel)
  have isNote : Document.IsNote ⟨"notes/Part.MD"⟩ := by
    obtain ⟨added, appended, notes⟩ := reads out r' unrolls
    have all : added = [⟨"notes/Part.MD"⟩] := appended.symm.trans read
    exact notes _ (by rw [all]; exact List.mem_singleton_self _)
  have images := (figures rfl (fun _ _ found => by cases found) closed out r' unrolls).1
  exact ⟨out, r', run, read, isNote, files, images⟩

/-- A note with an embed of a drawing whose address ends in a slash, and one that is called as the
picture of this drawing is looked for. -/
def slashed : Memory :=
  ⟨[(⟨"a.md"⟩, "![[x.excalidraw/]]\n"), (⟨"x.excalidraw/.png.md"⟩, "text\n")], [], []⟩

/-- It is not enough that the blocks and the known notes have no embed of an address with a slash
behind it: one in a note of the store can put in a note as an image. -/
theorem note_shown_as_image :
    ¬ ∀ (r r' : Resolver Memory) (nodes : List Node) (out : Resolved),
      Node.figureFiles nodes = [] →
      (∀ name note, r.cache.find? name = some note → ∃ text, Note.parse text = .ok note) →
      (∀ link ∈ Node.links nodes, endsIn (· == '/') link.address.toList = false) →
      (∀ name note, r.cache.find? name = some note → ∀ link ∈ Node.links note.body,
        endsIn (· == '/') link.address.toList = false) →
      (unroll nodes).on r = some (.ok out, r') →
        ∀ file ∈ Node.figureFiles out.nodes, file.IsImage := by
  intro images
  have shows : ((unroll [.embed ⟨"a", none, none⟩]).on (initial slashed .empty none)).bind
      (fun p => p.1.toOption.map fun out => Node.figureFiles out.nodes) =
        some [⟨"x.excalidraw/.png.md"⟩] := by decide +kernel
  obtain ⟨⟨outcome, r'⟩, run, shown⟩ := Option.bind_eq_some_iff.1 shows
  obtain ⟨out, rfl, -⟩ := Unrolls.of_on run
  have files : Node.figureFiles out.nodes = [⟨"x.excalidraw/.png.md"⟩] := Option.some.inj shown
  have isNote : Document.IsNote ⟨"x.excalidraw/.png.md"⟩ :=
    Document.endsWith_of_hasExtension (by decide +kernel)
  refine isNote.not_isImage (images _ r' _ out rfl (fun _ _ found => by cases found)
    (by decide +kernel) (fun _ _ found => by cases found) run _ ?_)
  rw [files]
  exact List.mem_singleton_self _

end Resolver

end Longform
