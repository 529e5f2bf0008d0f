import Longform.Proofs.Resolves
import Longform.Store.Memory

/-!
# The notes of documents in memory

What embeds can reach in a store of documents in memory. A search changes
nothing there, a read changes no document, and a link that names no image finds
a note, so that a run depends on the store only through `Memory.noteAt`.

`Resolver.Faithful` says that of a way to come by notes. Reading a note afresh is
faithful (`faithful_readNote`), and where base names are distinct so is asking
the cache first (`faithful_load`).
-/

namespace Longform

namespace Memory

variable {m s s' : Memory} {d : Document}

/-! ## Notes -/

/-- The documents that are notes. -/
def notes (m : Memory) : List Document :=
  (m.documents.map (·.1)).filter fun d => hasExtension d.name "md"

/-- Notes of one base name are one note. -/
def Distinct (m : Memory) : Prop :=
  ∀ d ∈ m.notes, ∀ e ∈ m.notes, d.basename = e.basename → d = e

instance (m : Memory) : Decidable m.Distinct :=
  inferInstanceAs (Decidable (∀ d ∈ m.notes, ∀ e ∈ m.notes, d.basename = e.basename → d = e))

/-- The note that a document holds. -/
def noteAt (m : Memory) (d : Document) : Except Error Note := (m.read d).1.bind Note.parse

/-- Every note of the cache is the one that the document of that name holds. -/
def Coherent (m : Memory) (c : Cache) : Prop :=
  ∀ name note, c.find? name = some note →
    ∃ d ∈ m.notes, d.basename = name ∧ m.noteAt d = .ok note

theorem coherent_empty (m : Memory) : m.Coherent .empty := by
  intro name note found
  cases found

theorem Coherent.add {c : Cache} {note : Note} (h : m.Coherent c) (mem : d ∈ m.notes)
    (holds : m.noteAt d = .ok note) : m.Coherent (c.add d.basename note) := by
  intro name other found
  rcases Cache.of_find?_add found with known | ⟨rfl, rfl⟩
  · exact h name other known
  · exact ⟨d, mem, rfl, holds⟩

/-- What a name is known for is what its only document holds. -/
theorem Coherent.noteAt_eq {c : Cache} {note : Note} (h : m.Coherent c) (distinct : m.Distinct)
    (mem : d ∈ m.notes) (found : c.find? d.basename = some note) : m.noteAt d = .ok note := by
  obtain ⟨e, among, same, holds⟩ := h d.basename note found
  rw [distinct d mem e among same.symm]
  exact holds

/-! ## Spellings -/

/-- A note under any spelling of its path. -/
def Holds (m : Memory) (d : Document) : Prop := ∃ e ∈ m.notes, same d e = true

instance (m : Memory) (d : Document) : Decidable (m.Holds d) :=
  inferInstanceAs (Decidable (∃ e ∈ m.notes, same d e = true))

theorem basename_of_same {e : Document} (h : same d e = true) : d.basename = e.basename := by
  have components : Path.components d.path = Path.components e.path := by
    simpa only [same, key, beq_iff_eq] using h
  rw [Document.basename, Document.basename, Path.fileStem?, Path.fileStem?, Path.fileName?,
    Path.fileName?, components]

theorem name_of_same {e : Document} (h : same d e = true) : d.name = e.name := by
  have components : Path.components d.path = Path.components e.path := by
    simpa only [same, key, beq_iff_eq] using h
  rw [Document.name, Document.name, Path.fileName?, Path.fileName?, components]

theorem same_congr {e : Document} (h : same d e = true) (root : Document) :
    same root d = same root e := by
  have keys : key d = key e := by simpa only [same, beq_iff_eq] using h
  rw [same, same, keys]

theorem get?_of_same {e : Document} (h : same d e = true) : m.get? d = m.get? e := by
  have keys : key d = key e := by simpa only [same, beq_iff_eq] using h
  have predicate : (fun x : Document × String => same d x.1) = fun x => same e x.1 := by
    funext x
    rw [same, same, keys]
  rw [get?, get?, predicate]

theorem noteAt_of_same {e : Document} {note : Note} (h : same d e = true)
    (holds : m.noteAt d = .ok note) : m.noteAt e = .ok note := by
  rw [noteAt, read, get?_of_same h] at holds
  rw [noteAt, read]
  rcases stored : m.get? e with _ | text
  · rw [stored] at holds
    cases holds
  · rw [stored] at holds
    exact holds

/-- The note that is exported is known rightly when it is one of the notes. -/
theorem coherent_of_holds {note : Note} (stored : m.Holds d) (holds : m.noteAt d = .ok note) :
    m.Coherent (Cache.empty.add d.basename note) := by
  obtain ⟨e, mem, same⟩ := stored
  rw [basename_of_same same]
  exact (coherent_empty m).add mem (noteAt_of_same same holds)

/-! ## Searching and reading -/

theorem read_congr (h : s.documents = s'.documents) (d : Document) :
    (s.read d).1 = (s'.read d).1 := by
  simp only [read, get?, h]

theorem noteAt_congr (h : s.documents = s'.documents) (d : Document) :
    s.noteAt d = s'.noteAt d := by
  rw [noteAt, noteAt, read_congr h]

theorem Coherent.congr {c : Cache} (coherent : s.Coherent c) (h : s.documents = s'.documents) :
    s'.Coherent c := by
  intro name note found
  obtain ⟨d, mem, same, holds⟩ := coherent name note found
  rw [notes, h] at mem
  rw [noteAt_congr h] at holds
  exact ⟨d, mem, same, holds⟩

theorem find_of_documents {address : String} {lookup : Lookup} {store : Memory}
    (found : Store.find address s = (lookup, store)) (h : s.documents = s'.documents) :
    store = s ∧ Store.find address s' = (lookup, s') := by
  change Memory.find address s = _ at found
  rw [Memory.find] at found
  cases found
  refine ⟨rfl, ?_⟩
  change Memory.find address s' = _
  rw [Memory.find, h]

theorem findImage_of_documents {address : String} {lookup : Lookup} {store : Memory}
    (found : Store.findImage address s = (lookup, store)) (h : s.documents = s'.documents) :
    store = s ∧ Store.findImage address s' = (lookup, s') :=
  find_of_documents found h

/-- An address that names no image names a note. -/
theorem mem_notes_of_find {address : String} {warnings : List String} {store : Memory}
    (noImage : isImageAddress address = false)
    (found : Store.find address m = (⟨some d, warnings⟩, store)) : d ∈ m.notes := by
  change (Lookup.search address (m.documents.map (·.1)), m) = _ at found
  simp only [Lookup.search, noImage] at found
  split at found
  · cases found
  · next first others eq =>
    cases found
    have mem : d ∈ (m.documents.map (·.1)).filter (Lookup.matchesAddress address false) := by
      rw [eq]
      exact List.mem_cons_self ..
    obtain ⟨stored, fits⟩ := List.mem_filter.1 mem
    refine List.mem_filter.2 ⟨stored, ?_⟩
    simp only [Lookup.matchesAddress, Lookup.matchesLeaf, Bool.false_eq_true, if_false,
      Bool.and_eq_true] at fits
    exact fits.1.1

end Memory

namespace Resolver

variable {m : Memory} {d : Document} {r r' q : Resolver Memory} {link : Link}

/-! ## Ways to come by notes -/

/-- The resolver searches the documents of `m`, and what it knows of their notes is right. -/
structure Agrees (m : Memory) (r : Resolver Memory) : Prop where
  documents : r.store.documents = m.documents
  coherent : m.Coherent r.cache

/-- What a run shows, apart from its outcome, and where the resolver is. -/
def shown (r : Resolver Memory) : List String × List Frame × Nat × Option Nat :=
  (r.warnings, r.place)

/-- `load` gives the note that a document of `m` holds, and nothing else of it shows. -/
def Faithful (m : Memory) (load : Document → Step Memory Note) : Prop :=
  ∀ {d r}, d ∈ m.notes → Agrees m r →
    ∃ r', (load d).on r = some (m.noteAt d, r') ∧ Agrees m r' ∧ r'.shown = r.shown

theorem faithful_readNote (m : Memory) : Faithful m Step.readNote := by
  intro d r _ agrees
  have read : (Store.read d r.store).1.bind Note.parse = m.noteAt d :=
    Memory.noteAt_congr agrees.documents d
  refine ⟨r.withStore (Store.read d r.store).2, ?_, ⟨agrees.documents, agrees.coherent⟩, rfl⟩
  rw [on_readNote, read]

/-- Where base names are distinct, what is known of a name is what would be read. -/
theorem faithful_load (distinct : m.Distinct) : Faithful m Step.load := by
  intro d r mem agrees
  have read : (Store.read d r.store).1.bind Note.parse = m.noteAt d :=
    Memory.noteAt_congr agrees.documents d
  rcases known : r.cache.find? d.basename with _ | note
  · rcases holds : m.noteAt d with e | note
    · refine ⟨r.withStore (Store.read d r.store).2, ?_, ⟨agrees.documents, agrees.coherent⟩, rfl⟩
      rw [on_load, known, read, holds]
    · refine ⟨(r.withStore (Store.read d r.store).2).withNote d.basename note, ?_,
        ⟨agrees.documents, agrees.coherent.add mem holds⟩, rfl⟩
      rw [on_load, known, read, holds]
  · refine ⟨r, ?_, agrees, rfl⟩
    rw [on_load, known, agrees.coherent.noteAt_eq distinct mem known]

end Resolver

end Longform
