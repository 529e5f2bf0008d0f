import Longform.Proofs.Listing
import Longform.Proofs.Failures
import Longform.Proofs.Visits
import Longform.Store.Memory
import Longform.Store.Vault

/-!
# What an export writes

Searching and reading leave what a store holds (`Store.Quiet`), so that nothing is
changed until a manuscript is complete and its text is known. Then a single
document is written, or an export to a file is given up.

* `Export.assemble_keeps`: a manuscript is made without changing the store.
* `Export.file_ends`: the ways in which an export to a file ends in any store.
* `Export.file_all_or_nothing`: in memory and on a disk, an export that fails has
  changed nothing, and one that succeeds has written its output and nothing else.
-/

namespace Longform

/-! ## Stores that are searched and read -/

/-- Searching and reading leave what `view` shows of a store, and what is read can be told from
it. -/
structure Store.Quiet {σ β : Type} [Store σ] (view : σ → β) : Prop where
  find : ∀ address s, view (Store.find address s).2 = view s
  read : ∀ d s, view (Store.read d s).2 = view s
  told : ∀ d {s s'}, view s = view s' → (Store.read d s).1 = (Store.read d s').1

namespace Memory

/-- The documents, and what has been written. -/
def holdings (m : Memory) : List (Document × String) × List Document := (m.documents, m.writes)

theorem quiet_holdings : Store.Quiet holdings := by
  refine ⟨fun _ _ => rfl, fun _ _ => rfl, fun d s s' same => ?_⟩
  have documents : s.documents = s'.documents := (Prod.mk.inj same).1
  change (s.read d).1 = (s'.read d).1
  simp only [read, get?, documents]

variable {d e : Document} {text : String} {docs : List (Document × String)} {m : Memory}

/-- The documents beside the one that is put there stay as they are, and in their order. -/
theorem filter_put (d : Document) (text : String) (docs : List (Document × String)) :
    (put d text docs).filter (fun x => !same d x.1) = docs.filter fun x => !same d x.1 := by
  have itself : (!same d d) = false := by rw [same_self, Bool.not_true]
  fun_induction put d text docs with
  | case1 => rw [List.filter_cons_of_neg (by rw [itself]; exact Bool.false_ne_true)]
  | case2 e old more here =>
    have hidden : (!same d e) = false := by rw [here, Bool.not_true]
    simp only [List.filter_cons, hidden, Bool.false_eq_true, if_false]
  | case3 e old more _ _ => rw [List.filter_cons_of_neg (by rw [itself]; exact Bool.false_ne_true)]
  | case4 e old more _ _ ih => rw [List.filter_cons, List.filter_cons, ih]

/-- Another document is found among those beside the one that is put there. -/
theorem get?_eq_of_filter {m' : Memory}
    (others : m.documents.filter (fun x => !same d x.1) =
      m'.documents.filter fun x => !same d x.1)
    (apart : same d e = false) : m.get? e = m'.get? e := by
  have shown : ∀ x : Document × String, same e x.1 = true → (!same d x.1) = true := by
    intro x found
    have keys : key e = key x.1 := by simpa only [same, beq_iff_eq] using found
    rw [same, ← keys, ← same, apart, Bool.not_false]
  have seen : ∀ docs : List (Document × String),
      docs.find? (fun x => same e x.1) =
        (docs.filter fun x => !same d x.1).find? fun x => same e x.1 := by
    intro docs
    rw [List.find?_filter]
    congr 1
    funext x
    rw [Bool.eq_iff_iff, decide_eq_true_iff]
    exact ⟨fun found => ⟨shown x found, found⟩, And.right⟩
  rw [get?, get?, seen, others, ← seen]

end Memory

namespace Vault

/-- Where the vault is, and the disk. -/
def whole (v : Vault) : String × Disk := (v.root, v.disk)

theorem quiet_whole : Store.Quiet whole := by
  refine ⟨fun _ _ => rfl, fun d s => ?_, fun d s s' same => ?_⟩
  · change ((s.read d).2).whole = _
    rw [read]
    split <;> rfl
  · obtain ⟨root, disk⟩ := Prod.mk.inj same
    change (s.read d).1 = (s'.read d).1
    rw [read, read, pathOf, pathOf, root, disk]
    split <;> rfl

variable {v v' : Vault} {d : Document} {text : String} {e : Error}

/-- What cannot be written has changed no file. Folders may have been created. -/
theorem write_eq_error (failed : v.write d text = (.error e, v')) :
    v'.root = v.root ∧ v'.disk.file? = v.disk.file? := by
  obtain ⟨disk, grows, ⟨fault, refused⟩ | ⟨disk', -, done⟩⟩ := v.write_cases d text
  · rw [refused] at failed
    cases failed
    exact ⟨rfl, grows.files⟩
  · rw [done] at failed
    cases failed

/-- What was listed has nothing to do with whether a document can be written. -/
theorem write_congr (same : v.whole = v'.whole) : (v.write d text).1 = (v'.write d text).1 := by
  obtain ⟨root, disk⟩ := Prod.mk.inj same
  unfold write
  rw [pathOf, pathOf, root, disk]
  rcases prepare v'.disk (Path.join v'.root d.path) with ⟨_ | _, disk⟩
  · rfl
  · simp only
    rcases disk.write (Path.join v'.root d.path) (.text text) with ⟨_ | _, _⟩ <;> rfl

/-- What is written is in one file, which the path of the document leads to. -/
theorem write_eq_ok (done : v.write d text = (.ok (), v')) :
    v'.root = v.root ∧ ∃ place, v'.disk.locate (v'.pathOf d) = .ok place ∧
      v'.disk.file? place = some (.text text) ∧
      ∀ other, other ≠ place → v'.disk.file? other = v.disk.file? other := by
  obtain ⟨disk, grows, ⟨fault, refused⟩ | ⟨disk', written, done'⟩⟩ := v.write_cases d text
  · rw [refused] at done
    cases done
  · rw [done'] at done
    cases done
    obtain ⟨place, led, holds, others⟩ := Disk.write_eq_ok written
    refine ⟨rfl, place, led, holds, fun other ne => ?_⟩
    rw [others other ne, grows.files]

end Vault

namespace Export

open Resolver (Stable Seeks Step)

/-! ## Manuscripts -/

section Quiet

variable {σ β : Type} [Store σ] {view : σ → β} {address : String} {request : ExportRequest}
  {s s' : Session σ} {r r' : Resolver σ} {link : Link} {t : Resolver.Target} {root : Document}
  {selection : Option String} {options : ExportOptions}

theorem view_of_load (quiet : Store.Quiet view) {d : Document} {outcome : Except Error Note}
    (run : (Step.load d).on r = some (outcome, r')) : view r'.store = view r.store := by
  rcases Resolver.load_cases run with ⟨_, -, -, rfl⟩ | ⟨-, _, -, -, rfl⟩ | ⟨-, _, -, -, rfl⟩
  · rfl
  · exact quiet.read d r.store
  · exact quiet.read d r.store

/-- A search for an embed leaves what a store holds. -/
theorem view_of_seeks (quiet : Store.Quiet view) (sought : Seeks Step.load r link t r') :
    view r'.store = view r.store := by
  have finds : ∀ {address lookup store}, Store.find address r.store = (lookup, store) →
      view store = view r.store := by
    intro address lookup store found
    have same := quiet.find address r.store
    rwa [found] at same
  cases sought with
  | figure _ found => exact finds found
  | noImage _ found => exact finds found
  | tooDeep _ _ => rfl
  | missing _ _ found => exact finds found
  | unloadable _ _ found loaded => exact (view_of_load quiet loaded).trans (finds found)
  | noHeading _ _ found loaded _ => exact (view_of_load quiet loaded).trans (finds found)
  | content _ _ found loaded _ => exact (view_of_load quiet loaded).trans (finds found)

theorem stable_view (quiet : Store.Quiet view) (A : Resolver σ → Link → Prop) (seen : β) :
    Stable Step.load A fun r => view r.store = seen :=
  ⟨fun _ _ _ same => same, fun _ sought same => (view_of_seeks quiet sought).trans same⟩

theorem view_rootOutcome (quiet : Store.Quiet view) (root : Document) (selection : Option String)
    (s : Session σ) : view (rootOutcome root selection s).2.store = view s.store := by
  cases selection with
  | none => exact quiet.read root s.store
  | some text => rfl

/-- A manuscript is made without changing what a store holds, and so an attempt to make one. -/
theorem assemble_keeps (quiet : Store.Quiet view) {outcome : Except Error Manuscript}
    (run : (assemble root selection options).on s = some (outcome, s')) :
    view s'.store = view s.store := by
  have start := view_rootOutcome quiet root selection s
  rcases parsed : (rootOutcome root selection s).1.bind Note.parse with e | note
  · rw [assemble_on_error parsed] at run
    cases run
    exact start
  · obtain ⟨r, same, last⟩ := exists_last_of_assemble (stable_view quiet _ _) parsed start run
    rw [last]
    exact same

/-! ## Files -/

/-- What is written of a manuscript: the requested template filled with it, or a document of its own
where no template is requested. -/
def exported (request : ExportRequest) (m : Manuscript) (s : σ) : Except Error String :=
  match request.template with
  | some template => (Store.read ⟨template⟩ s).1.map (Template.fill · m)
  | none =>
    .ok (m.standalone ((request.preamble.map Document.mk).map Document.name) request.options)

/-- The reasons for which an export to a file is given up before anything is written: there is no
root, no note in it, or no template. -/
inductive GivesUp (address : String) (request : ExportRequest) (s : σ) : Error → Prop
  | noRoot : (Store.find address s).1.found = none →
    GivesUp address request s (.notFound address)
  | noNote {root : Document} {e : Error} :
    (Store.find address s).1.found = some root →
    (Store.read root s).1.bind Note.parse = .error e → GivesUp address request s e
  | noTemplate {root : Document} {note : Note} {template : String} {e : Error} :
    (Store.find address s).1.found = some root →
    (Store.read root s).1.bind Note.parse = .ok note →
    request.template = some template → (Store.read ⟨template⟩ s).1 = .error e →
    GivesUp address request s e

/-- The manuscript `m` of the note that the address names is complete, `text` is what is written
of it, and `output` is where. -/
def Completes (address : String) (request : ExportRequest) (s : Session σ) (output : Document)
    (m : Manuscript) (text : String) : Prop :=
  ∃ root s₁ s₂, (findNote address).on s = some (.ok (some root), s₁) ∧
    (assemble root none request.options).on s₁ = some (.ok m, s₂) ∧
    output = outputOf request root ∧ exported request m s.store = .ok text

theorem findNote_on (address : String) (s : Session σ) :
    (findNote address).on s = some (.ok (Store.find address s.store).1.found,
      { s with
        store := (Store.find address s.store).2
        warnings := s.warnings ++ (Store.find address s.store).1.warnings }) := rfl

theorem writeText_on (d : Document) (text : String) (s : Session σ) :
    (writeText d text).on s =
      some ((Store.write d text s.store).1,
        { s with store := (Store.write d text s.store).2 }) := by
  rw [writeText, Action.on_bind_of_ok (Action.on_get s)]
  rcases Store.write d text s.store with ⟨_ | _, _⟩ <;> rfl

/-- A text is written last. -/
theorem writeText_pure_on {α : Type} (d : Document) (text : String) (x : α) (s : Session σ) :
    (writeText d text >>= fun _ => pure x).on s =
      some ((Store.write d text s.store).1.map fun _ => x,
        { s with store := (Store.write d text s.store).2 }) := by
  rw [Action.on_bind, writeText_on]
  rcases Store.write d text s.store with ⟨_ | _, _⟩ <;> rfl

theorem writeFilled_pure_on {α : Type} (template output : Document) (m : Manuscript) (x : α)
    (s : Session σ) :
    (writeFilled template m output >>= fun _ => pure x).on s =
      match Store.read template s.store with
      | (.error e, store) => some (.error e, { s with store })
      | (.ok text, store) =>
        some ((Store.write output (Template.fill text m) store).1.map fun _ => x,
          { s with store := (Store.write output (Template.fill text m) store).2 }) := by
  have reads := readText_on template s
  rw [writeFilled, bind_assoc]
  rcases outcome : Store.read template s.store with ⟨e | text, store⟩
  · rw [outcome] at reads
    exact Action.on_bind_of_error reads
  · rw [outcome] at reads
    rw [Action.on_bind_of_ok reads, writeText_pure_on]

/-- The ways in which an export to a file ends. Either it is given up, or what a store holds is what
it held when a single document is written. -/
theorem file_ends (quiet : Store.Quiet view) {outcome : Except Error (Document × Manuscript)}
    (run : (file address request).on s = some (outcome, s')) :
    (∃ e, outcome = .error e ∧ GivesUp address request s.store e ∧
      view s'.store = view s.store) ∨
    ∃ output m text store, Completes address request s output m text ∧
      view store = view s.store ∧ s'.store = (Store.write output text store).2 ∧
      outcome = (Store.write output text store).1.map fun _ => (output, m) := by
  have searched := findNote_on address s
  have same₁ := quiet.find address s.store
  rw [file, Action.on_bind_of_ok searched] at run
  rcases found : (Store.find address s.store).1.found with _ | root
  · rw [found] at run
    cases run
    exact .inl ⟨_, rfl, .noRoot found, same₁⟩
  rw [found] at run searched
  have read : ∀ d, (Store.read d (Store.find address s.store).2).1 = (Store.read d s.store).1 :=
    fun d => quiet.told d same₁
  rcases Action.of_on_bind run with ⟨m, s₂, assembled, writing⟩ | ⟨e, failed, rfl⟩
  · have same₂ := (assemble_keeps quiet assembled).trans same₁
    have completes : ∀ {text}, exported request m s.store = .ok text →
        Completes address request s (outputOf request root) m text :=
      fun holds => ⟨root, _, s₂, searched, assembled, rfl, holds⟩
    rcases requested : request.template with _ | template
    · rw [requested, writeStandalone, writeText_pure_on] at writing
      cases writing
      have alone : exported request m s.store = .ok (m.standalone
          ((request.preamble.map Document.mk).map Document.name) request.options) := by
        rw [exported, requested]
      exact .inr ⟨_, m, _, s₂.store, completes alone, same₂, rfl, rfl⟩
    · rw [requested, writeFilled_pure_on] at writing
      have told := quiet.told ⟨template⟩ same₂
      have same₃ := (quiet.read ⟨template⟩ s₂.store).trans same₂
      rcases reads : Store.read ⟨template⟩ s₂.store with ⟨e | text, store⟩
      · rw [reads] at writing told same₃
        cases writing
        obtain ⟨note, -, parsed, -⟩ := exists_regions_of_assemble assembled
        rw [rootOutcome, read] at parsed
        exact .inl ⟨e, rfl, .noTemplate found parsed requested told.symm, same₃⟩
      · rw [reads] at writing told same₃
        cases writing
        have filled : exported request m s.store = .ok (Template.fill text m) := by
          rw [exported, requested]
          change (Store.read ⟨template⟩ s.store).1.map _ = _
          rw [← told]
          rfl
        exact .inr ⟨_, m, _, store, completes filled, same₃, rfl, rfl⟩
  · have noNote := (assemble_error_iff _ _ _ _ _).1 ⟨_, failed⟩
    rw [rootOutcome, read] at noNote
    exact .inl ⟨e, rfl, .noNote found noNote, (assemble_keeps quiet failed).trans same₁⟩

end Quiet

variable {address : String} {request : ExportRequest} {output : Document} {m : Manuscript}
  {e : Error}

/-- An export from memory that fails has changed no document and written nothing. -/
theorem file_error_memory {s s' : Session Memory}
    (run : (file address request).on s = some (.error e, s')) :
    GivesUp address request s.store e ∧ s'.store.documents = s.store.documents ∧
      s'.store.writes = s.store.writes := by
  rcases file_ends Memory.quiet_holdings run with
    ⟨_, same, givesUp, kept⟩ | ⟨_, _, _, _, -, -, -, impossible⟩
  · cases same
    obtain ⟨documents, writes⟩ := Prod.mk.inj kept
    exact ⟨givesUp, documents, writes⟩
  · cases impossible

/-- An export from memory that succeeds has written its output, once, and nothing else. -/
theorem file_ok_memory {s s' : Session Memory}
    (run : (file address request).on s = some (.ok (output, m), s')) :
    ∃ text, Completes address request s output m text ∧
      s'.store.writes = s.store.writes ++ [output] ∧ s'.store.get? output = some text ∧
      s'.store.documents.filter (fun x => !Memory.same output x.1) =
        s.store.documents.filter fun x => !Memory.same output x.1 := by
  rcases file_ends Memory.quiet_holdings run with
    ⟨_, impossible, -, -⟩ | ⟨_, _, text, store, completes, kept, written, same⟩
  · cases impossible
  · cases same
    obtain ⟨documents, writes⟩ := Prod.mk.inj kept
    have written : s'.store = (store.write output text).2 := written
    refine ⟨text, completes, ?_, ?_, ?_⟩
    · rw [written, ← writes]
      rfl
    · rw [written]
      exact Memory.get?_insert store output text
    · rw [written, ← documents]
      exact Memory.filter_put output text store.documents

/-- An export on a disk that fails has changed no file. -/
theorem file_error_vault {s s' : Session Vault}
    (run : (file address request).on s = some (.error e, s')) :
    (GivesUp address request s.store e ∨ ∃ output m text,
        Completes address request s output m text ∧
          (Store.write output text s.store).1 = .error e) ∧
      s'.store.root = s.store.root ∧ s'.store.disk.file? = s.store.disk.file? := by
  rcases file_ends Vault.quiet_whole run with
    ⟨_, same, givesUp, kept⟩ | ⟨output, m, text, v, completes, kept, written, same⟩
  · cases same
    obtain ⟨root, disk⟩ := Prod.mk.inj kept
    exact ⟨.inl givesUp, root, by rw [disk]⟩
  · obtain ⟨root, disk⟩ := Prod.mk.inj kept
    rcases outcome : Store.write output text v with ⟨e' | _, v'⟩
    · rw [outcome] at same written
      cases same
      have refused : (Store.write output text s.store).1 = .error e := by
        rw [← show (Store.write output text v).1 = (Store.write output text s.store).1 from
          Vault.write_congr kept, outcome]
      obtain ⟨stays, files⟩ := Vault.write_eq_error outcome
      rw [written]
      exact ⟨.inr ⟨output, m, text, completes, refused⟩, stays.trans root, by rw [files, disk]⟩
    · rw [outcome] at same
      cases same

/-- An export on a disk that succeeds has written the file of its output, and no other has
changed. -/
theorem file_ok_vault {s s' : Session Vault}
    (run : (file address request).on s = some (.ok (output, m), s')) :
    ∃ text place, Completes address request s output m text ∧
      s'.store.root = s.store.root ∧
      s'.store.disk.locate (s'.store.pathOf output) = .ok place ∧
      s'.store.disk.file? place = some (.text text) ∧
      ∀ other, other ≠ place → s'.store.disk.file? other = s.store.disk.file? other := by
  rcases file_ends Vault.quiet_whole run with
    ⟨_, impossible, -, -⟩ | ⟨_, _, text, v, completes, kept, written, same⟩
  · cases impossible
  · obtain ⟨root, disk⟩ := Prod.mk.inj kept
    rcases outcome : Store.write _ text v with ⟨e' | _, v'⟩
    · rw [outcome] at same
      cases same
    · rw [outcome] at same written
      cases same
      obtain ⟨stays, place, led, holds, others⟩ := Vault.write_eq_ok outcome
      rw [written]
      refine ⟨text, place, completes, stays.trans root, led, holds, fun other ne => ?_⟩
      rw [others other ne, disk]

/-- An export to a file changes nothing or writes its output alone. In memory: when it fails, there
is no root, no note in it or no template, and no document has changed and none was written; when it
succeeds, one write was made, to the output, which holds the filled template or the document of its
own, and every other document is as it was. On a disk the same is true of what the files hold,
where besides the output may be impossible to write. -/
theorem file_all_or_nothing (address : String) (request : ExportRequest) :
    (∀ s s' : Session Memory,
      (∀ e, (file address request).on s = some (.error e, s') →
        GivesUp address request s.store e ∧ s'.store.documents = s.store.documents ∧
          s'.store.writes = s.store.writes) ∧
      ∀ output m, (file address request).on s = some (.ok (output, m), s') →
        ∃ text, Completes address request s output m text ∧
          s'.store.writes = s.store.writes ++ [output] ∧ s'.store.get? output = some text ∧
          s'.store.documents.filter (fun x => !Memory.same output x.1) =
            s.store.documents.filter (fun x => !Memory.same output x.1) ∧
          ∀ d, Memory.same output d = false → s'.store.get? d = s.store.get? d) ∧
    ∀ s s' : Session Vault,
      (∀ e, (file address request).on s = some (.error e, s') →
        (GivesUp address request s.store e ∨ ∃ output m text,
          Completes address request s output m text ∧
            (Store.write output text s.store).1 = .error e) ∧
          s'.store.root = s.store.root ∧ s'.store.disk.file? = s.store.disk.file?) ∧
      ∀ output m, (file address request).on s = some (.ok (output, m), s') →
        ∃ text place, Completes address request s output m text ∧
          s'.store.root = s.store.root ∧
          s'.store.disk.locate (s'.store.pathOf output) = .ok place ∧
          s'.store.disk.file? place = some (.text text) ∧
          ∀ other, other ≠ place → s'.store.disk.file? other = s.store.disk.file? other := by
  refine ⟨fun s s' => ⟨?_, ?_⟩, fun s s' => ⟨?_, ?_⟩⟩
  · intro e run
    exact file_error_memory run
  · intro output m run
    obtain ⟨text, completes, once, holds, others⟩ := file_ok_memory run
    exact ⟨text, completes, once, holds, others, fun d => Memory.get?_eq_of_filter others⟩
  · intro e run
    exact file_error_vault run
  · intro output m run
    exact file_ok_vault run

/-- A note that embeds another one, and a template, in memory. -/
def noteAndTemplate : Session Memory :=
  ⟨⟨[(⟨"frame.tex"⟩, "$body$"), (⟨"long.md"⟩, "![[part]]\n"), (⟨"part.md"⟩, "text\n")], [], []⟩,
    [], [], .open_ none⟩

/-- A folder with a note and a further folder. -/
def noteAndFolder : Session Vault :=
  ⟨.atFolder "/notes" ⟨[(["notes"], .folder), (["notes", "long.md"], .file (.text "text\n")),
      (["notes", "out"], .folder)], []⟩, [], [], .open_ none⟩

/-- The template is filled and written beside the three documents. A template that is missing and an
output that is a folder leave everything as it is; another output is created. -/
theorem file_all_or_nothing_outputs :
    (∃ m s', (file "long" ⟨some "frame.tex", none, some "out/long.tex", .standard⟩).on
        noteAndTemplate = some (.ok (⟨"out/long.tex"⟩, m), s') ∧
      s'.store.writes = [⟨"out/long.tex"⟩] ∧
      s'.store.get? ⟨"out/long.tex"⟩ = some (Template.fill "$body$" m) ∧
      s'.store.get? ⟨"long.md"⟩ = some "![[part]]\n") ∧
    (∃ e s', (file "long" ⟨some "lost.tex", none, none, .standard⟩).on noteAndTemplate =
        some (.error e, s') ∧
      s'.store.documents = noteAndTemplate.store.documents) ∧
    (∃ e s', (file "long" ⟨none, none, some "out", .standard⟩).on noteAndFolder =
        some (.error e, s') ∧
      s'.store.disk.file? = noteAndFolder.store.disk.file?) ∧
    ∃ output m s' place, (file "long" ⟨none, none, none, .standard⟩).on noteAndFolder =
        some (.ok (output, m), s') ∧
      s'.store.disk.locate (s'.store.pathOf output) = .ok place ∧
      ∀ other, other ≠ place →
        s'.store.disk.file? other = noteAndFolder.store.disk.file? other := by
  refine ⟨?_, ?_, ?_, ?_⟩
  · have ends : ((file "long" ⟨some "frame.tex", none, some "out/long.tex", .standard⟩).on
        noteAndTemplate).map (fun p => p.1.toOption.map (·.1)) =
          some (some ⟨"out/long.tex"⟩) := by decide +kernel
    obtain ⟨⟨outcome, s'⟩, run, same⟩ := Option.map_eq_some_iff.1 ends
    rcases outcome with e | ⟨output, m⟩
    · cases same
    cases same
    obtain ⟨text, ⟨_, _, _, -, -, -, filled⟩, once, holds, -, others⟩ :=
      ((file_all_or_nothing _ _).1 _ _).2 _ _ run
    refine ⟨m, s', run, once, ?_, (others ⟨"long.md"⟩ (by decide +kernel)).trans rfl⟩
    cases filled
    exact holds
  · have fails : ((file "long" ⟨some "lost.tex", none, none, .standard⟩).on noteAndTemplate).map
        (fun p => p.1.isOk) = some false := by decide +kernel
    obtain ⟨⟨outcome, s'⟩, run, same⟩ := Option.map_eq_some_iff.1 fails
    rcases outcome with e | _
    · exact ⟨e, s', run, (((file_all_or_nothing _ _).1 _ _).1 _ run).2.1⟩
    · cases same
  · have fails : ((file "long" ⟨none, none, some "out", .standard⟩).on noteAndFolder).map
        (fun p => p.1.isOk) = some false := by decide +kernel
    obtain ⟨⟨outcome, s'⟩, run, same⟩ := Option.map_eq_some_iff.1 fails
    rcases outcome with e | _
    · exact ⟨e, s', run, (((file_all_or_nothing _ _).2 _ _).1 _ run).2.2⟩
    · cases same
  · have ends : (file "long" ⟨none, none, none, .standard⟩).succeeds noteAndFolder = true := by
      decide +kernel
    obtain ⟨⟨output, m⟩, s', run⟩ := Action.exists_of_succeeds ends
    obtain ⟨_, place, -, -, led, -, others⟩ := ((file_all_or_nothing _ _).2 _ _).2 _ _ run
    exact ⟨output, m, s', place, run, led, others⟩

end Export

end Longform
