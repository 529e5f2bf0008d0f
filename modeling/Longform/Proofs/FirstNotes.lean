import Longform.Proofs.Seeks
import Longform.Store.Memory

/-!
# Notes that are known once

Between two embeds anything may happen to the notes that are known and to the
documents behind them: notes are asked for and put in, and the store is changed
(`Event`). What a name stands for is decided by the first of these events that has
a note for it.

* `find?_next` says what one event does to the note of a name, and `find?_after`
  what any number of them does.
* `notes_known_once`: so a note that is known stays, and is given without a look at
  the store; any other is read once, and becomes known only if it can be had.
-/

namespace Longform.Resolver

variable {σ : Type} [Store σ]

/-- What happens to the notes that are known and to the store they come from. -/
inductive Event (σ : Type) where
  /-- A note is put in under a name. -/
  | insert (basename : String) (note : Note)
  /-- The note of a document is asked for. -/
  | request (d : Document)
  /-- Something else leaves the store like this. -/
  | change (store : σ)

namespace Event

/-- The resolver after an event. -/
def next : Event σ → Resolver σ → Resolver σ
  | insert basename note, r => r.withNote basename note
  | request d, r => ((Step.load d).on r).elim r Prod.snd
  | change store, r => r.withStore store

/-- What an event has to give for a name: the note that is put in, or the one that the document
holds at this moment, if it holds one. -/
def offer? (r : Resolver σ) : Event σ → Option (String × Note)
  | insert basename note => some (basename, note)
  | request d => ((Store.read d r.store).1.bind Note.parse).toOption.map (d.basename, ·)
  | change _ => none

end Event

/-- The resolver after some events. -/
def after (r : Resolver σ) (events : List (Event σ)) : Resolver σ :=
  events.foldl (fun r event => event.next r) r

/-- What the events have to give for names, in order. -/
def offers (r : Resolver σ) : List (Event σ) → List (String × Note)
  | [] => []
  | event :: events => (event.offer? r).toList ++ (event.next r).offers events

/-- The note of a document of which nothing is known is asked for: the document is read once, and
the note becomes known, or nothing does. -/
structure Fetches (d : Document) (r : Resolver σ) (outcome : Except Error Note)
    (r' : Resolver σ) : Prop where
  reads : r'.store = (Store.read d r.store).2
  gives : outcome = (Store.read d r.store).1.bind Note.parse
  failed : ∀ e, outcome = .error e → r'.cache = r.cache
  known : ∀ note, outcome = .ok note →
    r'.cache.notes = r.cache.notes ++ [(d.basename, note)]

variable {r : Resolver σ} {d : Document} {note : Note} {name : String}

/-! ## One event -/

/-- A note that is known is given, and nothing else happens. -/
theorem load_of_known (known : r.cache.find? d.basename = some note) :
    (Step.load d).on r = some (.ok note, r) := by
  rw [on_load, known]

theorem load_of_unknown (unknown : r.cache.find? d.basename = none) :
    ∃ outcome r', (Step.load d).on r = some (outcome, r') ∧ Fetches d r outcome r' := by
  have fresh : r.cache.contains d.basename = false := by
    rw [Cache.contains, unknown, Option.isSome_none]
  rw [on_load, unknown]
  rcases read : (Store.read d r.store).1.bind Note.parse with e | note
  · refine ⟨_, _, rfl, rfl, read.symm, fun _ _ => rfl, fun note impossible => ?_⟩
    cases impossible
  · refine ⟨_, _, rfl, rfl, read.symm, fun e impossible => ?_, fun note' same => ?_⟩
    · cases impossible
    cases same
    simp only [withNote, withStore, Cache.add, fresh, Bool.false_eq_true, if_false]

theorem next_request_of_known (known : r.cache.find? d.basename = some note) :
    (Event.request d).next r = r := by
  rw [Event.next, load_of_known known, Option.elim_some]

theorem next_request_of_unknown (unknown : r.cache.find? d.basename = none) :
    ∃ outcome, (Step.load d).on r = some (outcome, (Event.request d).next r) ∧
      Fetches d r outcome ((Event.request d).next r) := by
  obtain ⟨outcome, r', run, fetches⟩ := load_of_unknown unknown
  rw [Event.next, run, Option.elim_some]
  exact ⟨outcome, rfl, fetches⟩

theorem lookup_singleton (name basename : String) (note : Note) :
    [(basename, note)].lookup name = if name = basename then some note else none := by
  rw [List.lookup_cons, List.lookup_nil]
  split
  · next same => rw [if_pos (beq_iff_eq.1 same)]
  · next other => rw [if_neg (beq_eq_false_iff_ne.1 other)]

/-- The note of a name after an event is the one it had, or else the one that the event gives. -/
theorem find?_next (event : Event σ) (r : Resolver σ) (name : String) :
    (event.next r).cache.find? name =
      (r.cache.find? name).or ((event.offer? r).toList.lookup name) := by
  cases event with
  | insert basename note =>
    rw [Event.next, Event.offer?, Option.toList_some, lookup_singleton, withNote, Cache.find?_add]
    split
    · next same =>
      rw [same]
      cases r.cache.find? basename <;> rfl
    · exact (Option.or_none).symm
  | request d =>
    rcases known : r.cache.find? d.basename with _ | note
    · obtain ⟨outcome, -, fetches⟩ := next_request_of_unknown known
      rcases given : (Store.read d r.store).1.bind Note.parse with e | note
      · rw [fetches.failed e (fetches.gives.trans given), Event.offer?, given]
        exact Option.or_none.symm
      · have now := fetches.known note (fetches.gives.trans given)
        rw [Cache.find?, now, List.lookup_append, Event.offer?, given]
        rfl
    · rw [next_request_of_known known, Event.offer?]
      rcases (Store.read d r.store).1.bind Note.parse with e | other
      · exact Option.or_none.symm
      · -- What the document holds is not looked at.
        change _ = (r.cache.find? name).or ([(d.basename, other)].lookup name)
        rw [lookup_singleton]
        split
        · next same => rw [same, known, Option.some_or]
        · exact Option.or_none.symm
  | change store => exact Option.or_none.symm

/-! ## Any number of events -/

theorem after_append (r : Resolver σ) (events more : List (Event σ)) :
    r.after (events ++ more) = (r.after events).after more :=
  List.foldl_append

/-- The note of a name after some events is the one it had, or else the first that they give. -/
theorem find?_after (r : Resolver σ) (events : List (Event σ)) (name : String) :
    (r.after events).cache.find? name =
      (r.cache.find? name).or ((r.offers events).lookup name) := by
  induction events generalizing r with
  | nil => exact Option.or_none.symm
  | cons event events ih =>
    change ((event.next r).after events).cache.find? name = _
    rw [ih, find?_next, offers, List.lookup_append, Option.or_assoc]

/-- Whatever is asked for and put in, and however the store changes meanwhile, a name stands for the
first note that there was for it, and never for another. The note of a document with a known name is
given as it is known, and the store is not touched. Any other document is read once, and either its
note becomes known and all else that is known stays, or the failure is given and nothing becomes
known. -/
theorem notes_known_once (r : Resolver σ) (events : List (Event σ)) :
    (∀ name, (r.after events).cache.find? name =
      (r.cache.find? name).or ((r.offers events).lookup name)) ∧
    (∀ name note, (r.after events).cache.find? name = some note →
      ∀ more, (r.after (events ++ more)).cache.find? name = some note) ∧
    (∀ d note, (r.after events).cache.find? d.basename = some note →
      (Step.load d).on (r.after events) = some (.ok note, r.after events)) ∧
    ∀ d, (r.after events).cache.find? d.basename = none →
      ∃ outcome r', (Step.load d).on (r.after events) = some (outcome, r') ∧
        r' = r.after (events ++ [.request d]) ∧ Fetches d (r.after events) outcome r' := by
  refine ⟨find?_after r events, ?_, fun d note known => load_of_known known, ?_⟩
  · intro name note known more
    rw [after_append, find?_after, known, Option.some_or]
  · intro d unknown
    obtain ⟨outcome, run, fetches⟩ := next_request_of_unknown unknown
    refine ⟨outcome, _, run, ?_, fetches⟩
    rw [after_append]
    rfl

/-- Two notes of one name, and one whose front matter is malformed. -/
def namesakes : Memory :=
  ⟨[(⟨"Note.md"⟩, "# First\n"), (⟨"bad.md"⟩, "---\n[\n---\n"),
    (⟨"other/Note.md"⟩, "# Other\n\n# More\n")], [], []⟩

/-- Another text for the first of them, and the malformed one mended. -/
def mended : Memory :=
  ⟨[(⟨"Note.md"⟩, "later\n\nlater\n\nlater\n"), (⟨"bad.md"⟩, "mended\n"),
    (⟨"other/Note.md"⟩, "# Other\n\n# More\n")], [], []⟩

/-- A missing document and the malformed note are asked for, then a note, which changes afterwards,
and two others of its name are put in and asked for. -/
def untidy : List (Event Memory) :=
  [.request ⟨"missing.md"⟩, .request ⟨"bad.md"⟩, .request ⟨"Note.md"⟩, .change mended,
    .insert "Note" ⟨.empty, []⟩, .request ⟨"other/Note.md"⟩]

theorem notes_known_once_namesakes :
    ∃ note, ((initial namesakes .empty none).after untidy).cache.find? "Note" = some note ∧
      note.body.length = 1 ∧
      (Step.load ⟨"other/Note.md"⟩).on ((initial namesakes .empty none).after untidy) =
        some (.ok note, (initial namesakes .empty none).after untidy) ∧
      ∃ outcome r', (Step.load ⟨"bad.md"⟩).on ((initial namesakes .empty none).after untidy) =
        some (outcome, r') ∧ outcome.isOk = true ∧ r'.store.reads = [⟨"bad.md"⟩] ∧
        Fetches ⟨"bad.md"⟩ ((initial namesakes .empty none).after untidy) outcome r' := by
  obtain ⟨-, -, given, fetched⟩ := notes_known_once (initial namesakes .empty none) untidy
  have sizes : ["Note", "bad"].map (fun name =>
      (((initial namesakes .empty none).after untidy).cache.find? name).map (·.body.length)) =
        [some 1, none] := by decide +kernel
  obtain ⟨known, unknown⟩ := List.cons_eq_cons.1 sizes
  obtain ⟨note, known, one⟩ := Option.map_eq_some_iff.1 known
  obtain ⟨unknown, -⟩ := List.cons_eq_cons.1 unknown
  obtain ⟨outcome, r', run, -, fetches⟩ := fetched ⟨"bad.md"⟩ (Option.map_eq_none_iff.1 unknown)
  refine ⟨note, known, one, given ⟨"other/Note.md"⟩ note known, outcome, r', run, ?_, ?_, fetches⟩
  · rw [fetches.gives]
    decide +kernel
  · rw [fetches.reads]
    decide +kernel

end Longform.Resolver
