import Longform.Proofs.Held
import Longform.Proofs.ImageNames
import Longform.Proofs.Visits

/-!
# What an export reads

A note is read when an embed names it and nothing is known of its base name.
Once the text of a note was read and is that of a note, the base name is known,
so that no document of this name is read again in the export. The root is known
from the beginning.

* `Resolver.Reading`: what a resolver has read, and `Reading.of_load` and
  `Reading.of_seeks` what loading and searching add to it.
* `Export.reads_notes_once`: what has been read wherever an export comes to, and
  when it has ended.
* `Export.reads_image_targets`: the file of an image is read if it is the root, and
  so may be the note that the address of a drawing with a slash behind it finds.
-/

namespace Longform

theorem Cache.contains_add (c : Cache) (basename name : String) (note : Note) :
    (c.add basename note).contains name = (name == basename || c.contains name) := by
  rw [contains, find?_add]
  split
  · next same => simp [same]
  · next other => simp [other, contains]

namespace Memory

variable {m m' : Memory} {d e : Document}

/-- Whether a document can be read and its text is that of a note. -/
def parses (m : Memory) (d : Document) : Bool := (m.noteAt d).isOk

theorem parses_congr (h : m.documents = m'.documents) (d : Document) :
    m.parses d = m'.parses d := by
  rw [parses, parses, noteAt_congr h]

theorem parses_of_same (h : same d e = true) (parsed : m.parses d = true) : m.parses e = true := by
  rw [parses] at parsed ⊢
  rcases holds : m.noteAt d with _ | note
  · rw [holds] at parsed
    cases parsed
  · rw [noteAt_of_same h holds]
    rfl

end Memory

namespace Resolver

variable {b : Memory} {root d : Document} {names : Document → Prop} {reads : List Document}
  {r r' : Resolver Memory} {link : Link} {t : Target}

/-! ## What a resolver has read -/

/-- After the store was `b` the documents `reads` were read. None is called like the root, and no
two of them are called alike of which the first could be read as a note. -/
structure Reading (b : Memory) (root : Document) (names : Document → Prop) (reads : List Document)
    (r : Resolver Memory) : Prop where
  documents : r.store.documents = b.documents
  appended : r.store.reads = b.reads ++ reads
  rootKnown : r.cache.contains root.basename = true
  named : ∀ d ∈ reads, names d
  apart : ∀ d ∈ reads, d.basename ≠ root.basename
  known : ∀ d ∈ reads, b.parses d = true → r.cache.contains d.basename = true
  once : reads.Pairwise fun d e => b.parses d = true → e.basename ≠ d.basename

/-- The open headings, the depth and the warnings have nothing to do with it. -/
theorem Reading.of_same (h : Reading b root names reads r) (store : r'.store = r.store)
    (cache : r'.cache = r.cache) : Reading b root names reads r' := by
  refine ⟨?_, ?_, ?_, h.named, h.apart, ?_, h.once⟩
  · rw [store]
    exact h.documents
  · rw [store]
    exact h.appended
  · rw [cache]
    exact h.rootKnown
  · rw [cache]
    exact h.known

/-- A document of an unknown name is called otherwise than all notes that have been read. -/
theorem Reading.ne_of_unknown (h : Reading b root names reads r)
    (unknown : r.cache.find? d.basename = none) :
    d.basename ≠ root.basename ∧ ∀ e ∈ reads, b.parses e = true → d.basename ≠ e.basename := by
  have ne : ∀ {name}, r.cache.contains name = true → d.basename ≠ name := by
    rintro _ contained rfl
    rw [Cache.contains, unknown] at contained
    cases contained
  exact ⟨ne h.rootKnown, fun e mem parsed => ne (h.known e mem parsed)⟩

/-- A document of an unknown name may be read, if its name is known then where it is a note. -/
theorem Reading.read (h : Reading b root names reads r) (named : names d)
    (unknown : r.cache.find? d.basename = none)
    (store : r'.store.documents = r.store.documents ∧ r'.store.reads = r.store.reads ++ [d])
    (kept : ∀ name, r.cache.contains name = true → r'.cache.contains name = true)
    (now : b.parses d = true → r'.cache.contains d.basename = true) :
    Reading b root names (reads ++ [d]) r' := by
  obtain ⟨notRoot, fresh⟩ := h.ne_of_unknown unknown
  obtain ⟨documents, appended⟩ := store
  refine ⟨documents.trans h.documents, ?_, kept _ h.rootKnown, ?_, ?_, ?_, ?_⟩
  · rw [appended, h.appended, List.append_assoc]
  · rw [List.forall_mem_append]
    exact ⟨h.named, List.forall_mem_singleton.2 named⟩
  · rw [List.forall_mem_append]
    exact ⟨h.apart, List.forall_mem_singleton.2 notRoot⟩
  · rw [List.forall_mem_append]
    exact ⟨fun e mem parsed => kept _ (h.known e mem parsed), List.forall_mem_singleton.2 now⟩
  · rw [List.pairwise_append]
    refine ⟨h.once, List.pairwise_singleton _ _, fun e mem => ?_⟩
    exact List.forall_mem_singleton.2 (fresh e mem)

/-- To load a note is to read it, or nothing is read. -/
theorem Reading.of_load (h : Reading b root names reads r) (named : names d)
    {outcome : Except Error Note} (run : (Step.load d).on r = some (outcome, r')) :
    ∃ reads', Reading b root names reads' r' := by
  have same : (Store.read d r.store).1.bind Note.parse = b.noteAt d :=
    Memory.noteAt_congr h.documents d
  rcases load_cases run with ⟨_, -, -, rfl⟩ | ⟨unknown, e, failed, -, rfl⟩ |
    ⟨unknown, note, parsed, -, rfl⟩
  · exact ⟨reads, h⟩
  · refine ⟨reads ++ [d], h.read named unknown ⟨rfl, rfl⟩ (fun _ known => known) ?_⟩
    -- What cannot be read as a note need not be known.
    intro parsed
    rw [Memory.parses, ← same, failed] at parsed
    cases parsed
  · refine ⟨reads ++ [d], h.read named unknown ⟨rfl, rfl⟩ (fun name known => ?_) fun _ => ?_⟩
    · change (r.cache.add d.basename note).contains name = true
      rw [Cache.contains_add, known, Bool.or_true]
    · change (r.cache.add d.basename note).contains d.basename = true
      rw [Cache.contains_add, beq_self_eq_true, Bool.true_or]

/-- A search reads what the embed names, if anything. -/
theorem Reading.of_seeks (h : ∃ reads, Reading b root names reads r)
    (named : ∀ d, r.reachedLimit? = none → b.noteNamed? link.address = some d → names d)
    (sought : Seeks Step.load r link t r') : ∃ reads, Reading b root names reads r' := by
  obtain ⟨reads, start⟩ := h
  refine sought.keepsLoading (I := fun q => ∃ reads, Reading b root names reads q) ?_ ?_
    ⟨reads, start⟩
  · rintro q q' ⟨reads, before⟩ store cache
    exact ⟨reads, before.of_same store cache⟩
  · rintro d outcome q q' free found ⟨reads, before⟩ loaded
    rw [Memory.noteNamed?_of_documents start.documents] at found
    exact before.of_load (named d free found) loaded

end Resolver

namespace Export

open Resolver (Reading)

variable {m : Memory} {root d : Document} {selection : Option String} {options : ExportOptions}
  {s s' : Session Memory} {q : Resolver Memory} {link : Link} {names : Document → Prop}
  {reads : List Document}

/-! ## What is read in one export -/

/-- An embed of a note that the export comes to, and that is not nested too deeply, names the
document. -/
def Names (root : Document) (selection : Option String) (options : ExportOptions)
    (s : Session Memory) (d : Document) : Prop :=
  ∃ q link, Visits root selection options s q link ∧ isImageAddress link.address = false ∧
    q.reachedLimit? = none ∧ (Store.find link.address s.store).1.found = some d

/-- What is read before the first region. -/
def rootReads (root : Document) (selection : Option String) : List Document :=
  if selection.isSome then [] else [root]

/-- The documents `reads` are read as they should be in an export of `root`, where `names` tells of
the documents that embeds of notes name. -/
structure ReadsOnce (m : Memory) (root : Document) (selection : Option String)
    (names : Document → Prop) (reads : List Document) : Prop where
  /-- No document is read after a note of its base name. -/
  once : reads.Pairwise fun d e => m.parses d = true → e.basename ≠ d.basename
  perName : ∀ name, reads.countP (fun d => d.basename == name && m.parses d) ≤ 1
  perDocument : ∀ d, m.parses d = true → reads.countP (Memory.same d) ≤ 1
  rootOnce : reads.countP (Memory.same root) = if selection.isSome then 0 else 1
  named : ∀ d ∈ reads, Memory.same root d = false → names d
  images : ∀ {address warnings d store}, isImageAddress address = true →
    isOpenDrawing address = false → Store.findImage address m = (⟨some d, warnings⟩, store) →
    Memory.same root d = false → reads.countP (Memory.same d) = 0

/-- Of documents no two of which may follow each other there is one at most. -/
theorem countP_le_one_of_pairwise {R : Document → Document → Prop} {p : Document → Bool}
    {ds : List Document} (apart : ds.Pairwise R)
    (clash : ∀ d e, p d = true → p e = true → ¬ R d e) : ds.countP p ≤ 1 := by
  induction ds with
  | nil => exact Nat.zero_le 1
  | cons d ds ih =>
    obtain ⟨first, rest⟩ := List.pairwise_cons.1 apart
    by_cases fits : p d = true
    · have none : ds.countP p = 0 :=
        List.countP_eq_zero.2 fun e mem fits' => clash d e fits fits' (first e mem)
      rw [List.countP_cons_of_pos fits, none, Nat.zero_add]
    · rw [List.countP_cons_of_neg fits]
      exact ih rest

/-- Reads of the root, and then of notes that embeds name and that are called otherwise, are as they
should be if no document is read after a note of its name. -/
theorem readsOnce_of_apart (named : ∀ d ∈ reads, names d)
    (notes : ∀ d, names d → hasExtension d.name "md" = true)
    (apart : ∀ d ∈ reads, d.basename ≠ root.basename)
    (once : reads.Pairwise fun d e => m.parses d = true → e.basename ≠ d.basename) :
    ReadsOnce m root selection names (rootReads root selection ++ reads) := by
  have whole : (rootReads root selection ++ reads).Pairwise fun d e =>
      m.parses d = true → e.basename ≠ d.basename := by
    rw [rootReads]
    split
    · exact once
    · exact List.pairwise_cons.2 ⟨fun e mem _ => apart e mem, once⟩
  have later : ∀ d ∈ rootReads root selection ++ reads, Memory.same root d = false → d ∈ reads := by
    intro d mem other
    rcases List.mem_append.1 mem with first | mem
    · rw [rootReads] at first
      split at first
      · cases first
      · rw [List.mem_singleton.1 first, Memory.same_self] at other
        cases other
    · exact mem
  refine ⟨whole, ?_, ?_, ?_, ?_, ?_⟩
  · intro name
    refine countP_le_one_of_pairwise whole fun d e first second follows => ?_
    simp only [Bool.and_eq_true, beq_iff_eq] at first second
    exact follows first.2 (second.1.trans first.1.symm)
  · intro d parsed
    refine countP_le_one_of_pairwise whole fun d' e first second follows => ?_
    refine follows (Memory.parses_of_same first parsed) ?_
    exact (Memory.basename_of_same second).symm.trans (Memory.basename_of_same first)
  · have none : reads.countP (Memory.same root) = 0 :=
      List.countP_eq_zero.2 fun e mem same => apart e mem (Memory.basename_of_same same).symm
    rw [List.countP_append, none, rootReads]
    split
    · rfl
    · rw [List.countP_singleton, if_pos (Memory.same_self root)]
  · exact fun d mem other => named d (later d mem other)
  · intro address warnings d store image closed found notRoot
    refine List.countP_eq_zero.2 fun e mem same => ?_
    have other : Memory.same root e = false := by
      rw [← Memory.same_congr same root]
      exact notRoot
    have isNote := notes e (named e (later e mem other))
    have noNote := Memory.not_note_of_findImage image closed found
    rw [Memory.name_of_same same, isNote] at noNote
    cases noNote

theorem notes_of_names (h : Names root selection options s d) :
    hasExtension d.name "md" = true := by
  obtain ⟨q, link, -, noImage, -, found⟩ := h
  have named := Memory.noteNamed?_eq_some_iff.2 ⟨noImage, found⟩
  exact (List.mem_filter.1 (Memory.mem_notes_of_noteNamed? named)).2

theorem rootOutcome_store (root : Document) (selection : Option String) (s : Session Memory) :
    (rootOutcome root selection s).2.store.documents = s.store.documents ∧
      (rootOutcome root selection s).2.store.reads = s.store.reads ++ rootReads root selection := by
  cases selection with
  | some text => exact ⟨rfl, (List.append_nil _).symm⟩
  | none => exact ⟨rfl, rfl⟩

/-- The searches for the embeds that an export comes to read as they should. -/
theorem stable_reading (root : Document) (selection : Option String) (options : ExportOptions)
    (s : Session Memory) :
    Resolver.Stable Resolver.Step.load (Visits root selection options s) fun r =>
      ∃ reads, Reading (rootOutcome root selection s).2.store root
        (Names root selection options s) reads r := by
  constructor
  · rintro r frames depth ⟨reads, h⟩
    exact ⟨reads, h.of_same rfl rfl⟩
  · intro q link t q' visits sought h
    refine Reading.of_seeks h (fun d free names => ?_) sought
    rw [Memory.noteNamed?_of_documents (rootOutcome_store root selection s).1] at names
    obtain ⟨noImage, found⟩ := Memory.noteNamed?_eq_some_iff.1 names
    exact ⟨q, link, visits, noImage, free, found⟩

/-- Before the first region nothing but the root is read, and the root is known. -/
theorem reading_start (root : Document) (selection : Option String) (s : Session Memory)
    (note : Note) (limit : Option Nat) :
    Reading (rootOutcome root selection s).2.store root names [] (resolver
      (rootOutcome root selection s).2 (Cache.empty.add root.basename note) [] limit) := by
  have known : (Cache.empty.add root.basename note).contains root.basename = true := by
    rw [Cache.contains_add, beq_self_eq_true, Bool.true_or]
  exact ⟨rfl, (List.append_nil _).symm, known, nofun, nofun, nofun, .nil⟩

theorem readsOnce_of_reading {r : Resolver Memory}
    (h : ∃ reads, Reading (rootOutcome root selection s).2.store root
      (Names root selection options s) reads r) :
    ∃ reads, r.store.reads = s.store.reads ++ reads ∧
      ReadsOnce s.store root selection (Names root selection options s) reads := by
  obtain ⟨later, h⟩ := h
  obtain ⟨documents, reads⟩ := rootOutcome_store root selection s
  refine ⟨rootReads root selection ++ later, ?_, ?_⟩
  · rw [h.appended, reads, List.append_assoc]
  · refine readsOnce_of_apart h.named (fun d => notes_of_names) h.apart ?_
    refine h.once.imp fun follows parsed => follows ?_
    rw [Memory.parses_congr documents]
    exact parsed

/-- Wherever an export comes to, and when it has ended, whatever its outcome: no document has been
read after a note of its base name, so that of each name at most one text of a note was read, and
the text of each note at most once; the root was read once, or not at all where a selection is
exported; any other document that was read is named by an embed of a note that the export came to;
and no file of an image was read but the root, unless by the address of a drawing with a slash
behind it. -/
theorem reads_notes_once (s : Session Memory) (root : Document) (selection : Option String)
    (options : ExportOptions) :
    (∀ outcome s', (assemble root selection options).on s = some (outcome, s') →
      ∃ reads, s'.store.reads = s.store.reads ++ reads ∧
        ReadsOnce s.store root selection (Names root selection options s) reads) ∧
    ∀ q link, Visits root selection options s q link →
      ∃ reads, q.store.reads = s.store.reads ++ reads ∧
        ReadsOnce s.store root selection (Names root selection options s) reads := by
  constructor
  · intro outcome s' run
    rcases parsed : (rootOutcome root selection s).1.bind Note.parse with e | note
    · rw [assemble_on_error parsed] at run
      cases run
      refine ⟨rootReads root selection, (rootOutcome_store root selection s).2, ?_⟩
      rw [← List.append_nil (rootReads root selection)]
      exact readsOnce_of_apart nofun (fun d => notes_of_names) nofun .nil
    · obtain ⟨r, last, same⟩ := exists_last_of_assemble (stable_reading root selection options s)
        parsed ⟨[], reading_start root selection s note _⟩ run
      rw [same]
      exact readsOnce_of_reading last
  · intro q link visits
    exact readsOnce_of_reading (visits.keeps (stable_reading root selection options s)
      fun note _ => ⟨[], reading_start root selection s note _⟩)

/-- A note that embeds another one twice, and twice one whose front matter cannot be read. -/
def partAndBroken : Memory :=
  ⟨[(⟨"broken.md"⟩, "---\ntitle: [open\n---\n"), (⟨"part.md"⟩, "# Part\n![[long]]\n"),
    (⟨"long.md"⟩, "![[part]]\n\n![[broken]]\n\n![[part]]\n\n![[broken]]\n")], [], []⟩

/-- The first note and the root are read once; what cannot be read is tried again. -/
theorem reads_notes_once_partAndBroken :
    ∃ outcome s',
      (assemble ⟨"long.md"⟩ none { ExportOptions.standard with maxEmbedDepth := some 2 }).on
        ⟨partAndBroken, [], [], .open_ none⟩ = some (outcome, s') ∧
      s'.store.reads = [⟨"long.md"⟩, ⟨"part.md"⟩, ⟨"broken.md"⟩, ⟨"broken.md"⟩] ∧
      ReadsOnce partAndBroken ⟨"long.md"⟩ none
        (Names ⟨"long.md"⟩ none { ExportOptions.standard with maxEmbedDepth := some 2 }
          ⟨partAndBroken, [], [], .open_ none⟩) s'.store.reads := by
  have reads : ((assemble ⟨"long.md"⟩ none
      { ExportOptions.standard with maxEmbedDepth := some 2 }).on
        ⟨partAndBroken, [], [], .open_ none⟩).map (·.2.store.reads) =
      some [⟨"long.md"⟩, ⟨"part.md"⟩, ⟨"broken.md"⟩, ⟨"broken.md"⟩] := by decide +kernel
  obtain ⟨⟨outcome, s'⟩, run, same⟩ := Option.map_eq_some_iff.1 reads
  obtain ⟨ended, -⟩ := reads_notes_once ⟨partAndBroken, [], [], .open_ none⟩ ⟨"long.md"⟩ none
    { ExportOptions.standard with maxEmbedDepth := some 2 }
  obtain ⟨added, whole, once⟩ := ended outcome s' run
  refine ⟨outcome, s', run, same, ?_⟩
  rw [whole]
  exact once

/-- A picture that is exported as a note, and embeds itself. -/
def pictureAsNote : Memory := ⟨[(⟨"plot.png"⟩, "![[plot.png]]\n")], [], []⟩

/-- A note in a folder called like a drawing, embedded as the drawing and as itself. -/
def folderAsDrawing : Memory :=
  ⟨[(⟨"root.md"⟩, "![[x.excalidraw/]]\n\n![[.png]]\n"), (⟨"x.excalidraw/.png.md"⟩, "text\n")],
    [], []⟩

/-- Both are put in as figures by an embed of an image, and both are read. -/
theorem reads_image_targets :
    (isImageAddress "plot.png" = true ∧
      (Store.findImage "plot.png" pictureAsNote).1.found = some ⟨"plot.png"⟩ ∧
      ((assemble ⟨"plot.png"⟩ none .standard).on ⟨pictureAsNote, [], [], .open_ none⟩).map
        (fun (outcome, s) => (outcome.toOption.map fun m => m.references.mediaFiles,
          s.store.readsOf ⟨"plot.png"⟩)) = some (some [⟨"plot.png"⟩], 1)) ∧
    isImageAddress "x.excalidraw/" = true ∧
      (Store.findImage "x.excalidraw/" folderAsDrawing).1.found =
        some ⟨"x.excalidraw/.png.md"⟩ ∧
      ((assemble ⟨"root.md"⟩ none .standard).on ⟨folderAsDrawing, [], [], .open_ none⟩).map
        (fun (outcome, s) => (outcome.toOption.map fun m => m.references.mediaFiles,
          s.store.readsOf ⟨"x.excalidraw/.png.md"⟩)) =
        some (some [⟨"x.excalidraw/.png.md"⟩], 1) := by
  refine ⟨⟨?_, ?_, ?_⟩, ?_, ?_, ?_⟩
  all_goals decide +kernel

end Export

end Longform
