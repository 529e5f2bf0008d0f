import Longform.Proofs.Folders
import Longform.Proofs.Held

/-!
# Embeds that fail

An embed fails when its image or its note is not there, when embeds are nested too
deeply, when its note cannot be had, and when the note lacks the heading. Where it
fails nothing is put in its place, and it is as if it had never been written but for
its warnings: one for each further note that its address names, and one that says
how it failed.

* `Fails` lists the five ways, with the warnings of each.
* `Fails.seeks`: an embed that fails is found to be nothing, with those warnings; and
  `Fails.of_seeks`: there is no other way to be found to be nothing.
* `walk_on_abreast`: blocks are resolved alike in two states that know the notes
  alike, whatever was warned of before.
* `unroll_failed_embed`: so an embed that fails can be left out.
-/

namespace Longform

namespace Memory

open Lookup (matchesAddress missingWarning repeatedWarning)

variable {m : Memory} {address : String} {d : Document} {others : List Document}

/-- The documents that an address names, in the order of the store. -/
def matching (m : Memory) (address : String) : List Document :=
  m.titles.filter (matchesAddress address (isImageAddress address))

theorem find_of_none (none : m.matching address = []) :
    Store.find address m = (⟨.none, [missingWarning address]⟩, m) := by
  unfold matching at none
  rw [find_eq, Lookup.search, none]

theorem found_find (m : Memory) (address : String) :
    (Store.find address m).1.found = (m.matching address).head? := by
  rw [find_eq, Lookup.found_search, ← List.head?_filter]
  rfl

/-- The first note that an address names is found, and each other one is warned of. -/
theorem find_of_first (noImage : isImageAddress address = false)
    (first : m.matching address = d :: others) :
    Store.find address m = (⟨some d, others.map (repeatedWarning address)⟩, m) := by
  unfold matching at first
  rw [find_eq, Lookup.search, first]
  simp only [noImage, Bool.false_eq_true, if_false]

end Memory

namespace Resolver

open Lookup (missingWarning repeatedWarning)

variable {m : Memory} {r r₁ r' q q' : Resolver Memory} {link : Link} {repeated : List String}
  {failure : String} {fuel : Nat} {nodes : List Node}

/-- How an embed fails: what it warns of before, and the warning that says how it failed. -/
inductive Fails (r : Resolver Memory) (link : Link) : List String → String → Prop
  /-- There is no such image. For a drawing the picture beside it is looked for. -/
  | noImage : isImageAddress link.address = true →
    r.store.matching (pictureAddress link.address) = [] →
    Fails r link [] (missingWarning (pictureAddress link.address))
  | tooDeep {limit : Nat} : isImageAddress link.address = false →
    r.reachedLimit? = some limit → Fails r link [] (depthWarning limit link.address)
  | missing : isImageAddress link.address = false → r.reachedLimit? = none →
    r.store.matching link.address = [] → Fails r link [] (missingWarning link.address)
  /-- The note cannot be read, or what it holds is no note. -/
  | unloadable {d : Document} {others : List Document} {e : Error} :
    isImageAddress link.address = false → r.reachedLimit? = none →
    r.store.matching link.address = d :: others → r.held d = .error e →
    Fails r link (others.map (repeatedWarning link.address)) (loadWarning link.address e)
  | noHeading {d : Document} {others : List Document} {note : Note} {title : String} :
    isImageAddress link.address = false → r.reachedLimit? = none →
    r.store.matching link.address = d :: others → r.held d = .ok note →
    link.heading = some title → Node.findHeading? title note.body = none →
    Fails r link (others.map (repeatedWarning link.address)) (headingWarning title link.address)

/-- An embed that fails is found to be nothing, and it warns of what the failure says. -/
theorem Fails.seeks (fails : Fails r link repeated failure) :
    ∃ r', Seeks Step.load r link (.done .empty) r' ∧
      r'.warnings = r.warnings ++ repeated ++ [failure] := by
  have alone : ∀ warning, r.warnings ++ [warning] = r.warnings ++ [] ++ [warning] := by
    intro warning
    rw [List.append_nil]
  have loads : ∀ {d outcome} (warnings : List String), r.held d = outcome → ∃ r',
      (Step.load d).on (r.searched warnings r.store) = some (outcome, r') ∧
      r'.warnings = r.warnings ++ warnings := by
    intro d outcome warnings holds
    obtain ⟨outcome', r', loaded⟩ := total_load d (r.searched warnings r.store)
    have same : outcome' = (r.searched warnings r.store).held d := load_held loaded
    change outcome' = r.held d at same
    rw [same, holds] at loaded
    exact ⟨r', loaded, warnings_of_load loaded⟩
  cases fails with
  | noImage isImage none =>
    have found : Store.findImage link.address r.store =
        (⟨.none, [missingWarning (pictureAddress link.address)]⟩, r.store) :=
      Memory.find_of_none none
    exact ⟨_, .noImage isImage found, alone _⟩
  | tooDeep noImage reached => exact ⟨_, .tooDeep noImage reached, alone _⟩
  | missing noImage free none =>
    have found := Memory.find_of_none none
    exact ⟨_, .missing noImage free found, alone _⟩
  | unloadable noImage free first broken =>
    have found := Memory.find_of_first noImage first
    obtain ⟨r', loaded, added⟩ := loads _ broken
    exact ⟨_, .unloadable noImage free found loaded, congrArg (· ++ [_]) added⟩
  | @noHeading d others note title noImage free first holds heading absent =>
    have found := Memory.find_of_first noImage first
    obtain ⟨r', loaded, added⟩ := loads _ holds
    have aim : target? link d note = none := by
      simp only [target?, heading, absent, Option.map_none]
    have sought := Seeks.noHeading noImage free found loaded aim
    rw [heading, Option.getD_some] at sought
    exact ⟨_, sought, congrArg (· ++ [_]) added⟩

/-- An embed that is found to be nothing fails in one of the listed ways. -/
theorem Fails.of_seeks (sought : Seeks Step.load r link (.done .empty) r') :
    ∃ repeated failure, Fails r link repeated failure := by
  have none : ∀ {address warnings store}, Store.find address r.store = (⟨.none, warnings⟩, store) →
      r.store.matching address = [] := by
    intro address warnings store found
    rw [← List.head?_eq_none_iff, ← Memory.found_find, found]
  have first : ∀ {d address warnings store},
      Store.find address r.store = (⟨some d, warnings⟩, store) →
      ∃ others, r.store.matching address = d :: others ∧ store = r.store := by
    intro d address warnings store found
    obtain ⟨others, whole⟩ := List.head?_eq_some_iff.1
      ((r.store.found_find address).symm.trans (congrArg (·.1.found) found))
    rw [Memory.find_eq] at found
    exact ⟨others, whole, (Prod.mk.inj found).2.symm⟩
  generalize nothing : Target.done .empty = t at sought
  cases sought with
  | figure _ _ => cases nothing
  | noImage isImage found => exact ⟨_, _, .noImage isImage (none found)⟩
  | tooDeep noImage reached => exact ⟨_, _, .tooDeep noImage reached⟩
  | missing noImage free found => exact ⟨_, _, .missing noImage free (none found)⟩
  | unloadable noImage free found loaded =>
    obtain ⟨others, whole, rfl⟩ := first found
    exact ⟨_, _, .unloadable noImage free whole (load_held loaded).symm⟩
  | @noHeading d warnings store note r₁ noImage free found loaded aim =>
    obtain ⟨others, whole, rfl⟩ := first found
    rcases heading : link.heading with _ | title
    · simp only [target?, heading] at aim
      cases aim
    · simp only [target?, heading, Option.map_eq_none_iff] at aim
      exact ⟨_, _, .noHeading noImage free whole (load_held loaded).symm heading aim⟩
  | content _ _ _ _ _ => cases nothing

/-- Blocks are resolved alike in two states that stand alike and hold all notes for the same, and
they add the same warnings to those there are. -/
theorem walk_on_abreast {given : Document → Except Error Note} {w w' : List String}
    (distinct : m.Distinct) (h : Abreast m given (fun _ => True) w w' r q) (alike : StandAlike r q)
    (fuel : Nat) (nodes : List Node) :
    ((walk (embed Step.load fuel) nodes).on r = none ∧
      (walk (embed Step.load fuel) nodes).on q = none) ∨
    ∃ out r' q', (walk (embed Step.load fuel) nodes).on r = some (.ok out, r') ∧
      (walk (embed Step.load fuel) nodes).on q = some (.ok out, q') ∧
      Abreast m given (fun _ => True) w w' r' q' := by
  rcases run : (walk (embed Step.load fuel) nodes).on r with _ | ⟨outcome, r'⟩
  · rcases run' : (walk (embed Step.load fuel) nodes).on q with _ | ⟨outcome, q'⟩
    · exact .inl ⟨rfl, rfl⟩
    · obtain ⟨out, -, derived⟩ := Resolves.of_on run'
      obtain ⟨r', there, -⟩ :=
        derived.abreast distinct h.symm alike.symm fun _ _ _ _ _ _ => trivial
      cases run.symm.trans there.on
  · obtain ⟨out, rfl, derived⟩ := Resolves.of_on run
    obtain ⟨q', there, after⟩ := derived.abreast distinct h alike fun _ _ _ _ _ _ => trivial
    exact .inr ⟨out, r', q', rfl, there.on, after⟩

theorem fuel_ne_zero (r : Resolver Memory) : r.fuel ≠ 0 := by
  rcases limit : r.limit with _ | n
  · rw [fuel_of_unlimited limit]
    exact (Nat.two_pow_pos 62).ne'
  · rw [fuel_of_limit limit]
    exact Nat.succ_ne_zero _

/-- An embed that fails can be left out. Where base names are distinct and what is known of the
notes is right, blocks with the embed between them are resolved to the same blocks and references as
without it, and have no outcome only if there is no limit and they have none without it either. The
warnings are the same, but that after those of the blocks before the embed there is one for each
further note that its address names, and one that says how it failed. -/
theorem unroll_failed_embed {A B : List Node} {first : Resolved} (distinct : r.store.Distinct)
    (coherent : r.store.Coherent r.cache) (before : (unroll A).on r = some (.ok first, r₁))
    (fails : Fails r₁ link repeated failure) :
    (r.limit = none ∧ (unroll (A ++ B)).on r = none ∧
      (unroll (A ++ [.embed link] ++ B)).on r = none) ∨
    ∃ out r' q' after,
      (unroll (A ++ B)).on r = some (.ok out, r') ∧
      r'.warnings = r₁.warnings ++ after ∧
      (unroll (A ++ [.embed link] ++ B)).on r = some (.ok out, q') ∧
      q'.warnings = r₁.warnings ++ repeated ++ [failure] ++ after := by
  have agrees : Agrees r.store r₁ := unroll_agrees distinct ⟨rfl, coherent⟩ before
  have offers : Offers r.store r.store.noteAt (fun _ => True) r₁ := agrees.offers distinct
  obtain ⟨q, sought, added⟩ := fails.seeks
  obtain ⟨fuel, enough⟩ := Nat.exists_eq_succ_of_ne_zero (fuel_ne_zero r)
  rw [unroll_on, enough] at before
  -- With the embed, the blocks after it are resolved from `q`, and without it from `r₁`.
  have without := walk_append_on_of_ok before B
  have within := walk_append_on_of_ok before (.embed link :: B)
  have nothing :
      (walkOne (embed Step.load (fuel + 1)) (.embed link)).on r₁ = some (.ok .empty, q) :=
    embed_on_done sought
  rw [walk_cons_on_of_ok nothing] at within
  have beside : Abreast r.store r.store.noteAt (fun _ => True) r₁.warnings q.warnings r₁ q :=
    ⟨offers, sought.offers distinct offers, [], (List.append_nil _).symm, (List.append_nil _).symm⟩
  have alike : StandAlike r₁ q :=
    StandAlike.of_place ⟨rfl, rfl, rfl⟩ rfl (sought.place staysAt_load)
  rw [unroll_on, unroll_on, enough, List.append_assoc, List.singleton_append, without, within]
  rcases walk_on_abreast distinct beside alike (fuel + 1) B with
    ⟨none₁, none₂⟩ | ⟨rest, r', q', run₁, run₂, after⟩
  · left
    have unlimited : r.limit = none := by
      rcases limit : r.limit with _ | n
      · rfl
      · obtain ⟨out, r', run⟩ := unroll_on_limit limit (A ++ B)
        rw [unroll_on, enough, without, none₁] at run
        cases run
    rw [none₁, none₂]
    exact ⟨unlimited, rfl, rfl⟩
  · right
    obtain ⟨more, left, right⟩ := after.warnings
    rw [run₁, run₂]
    exact ⟨first ++ rest, r', q', more, rfl, left, rfl, by rw [right, added]⟩

/-- Three notes, two of which are called alike but for the case of a letter. -/
def namesakesAndPart : Memory :=
  ⟨[(⟨"a/Note.md"⟩, "# Note\n"), (⟨"b/note.md"⟩, "# Other\n"), (⟨"part.md"⟩, "# Part\n")], [], []⟩

theorem unroll_failed_embed_ghostHeading :
    ∃ out r' q' after,
      (unroll [.embed ⟨"lost", none, none⟩, .embed ⟨"part", none, none⟩]).on
        (initial namesakesAndPart .empty (some 3)) = some (.ok out, r') ∧
      r'.warnings = ["File not found: lost"] ++ after ∧
      (unroll [.embed ⟨"lost", none, none⟩, .embed ⟨"note", some "Ghost", none⟩,
        .embed ⟨"part", none, none⟩]).on
        (initial namesakesAndPart .empty (some 3)) = some (.ok out, q') ∧
      q'.warnings = ["File not found: lost"] ++
        ["Multiple files found with the same name 'note'. Returning the first one found. " ++
          "Additional file found has path: b/note.md"] ++
        ["Header not found: Ghost in file with address note"] ++ after := by
  let start := initial namesakesAndPart .empty (some 3)
  let reached := start.searched ["File not found: lost"] namesakesAndPart
  have before : (unroll [.embed ⟨"lost", none, none⟩]).on start = some (.ok .empty, reached) := by
    have noLost : namesakesAndPart.matching "lost" = [] := by decide +kernel
    have sought : Seeks Step.load start ⟨"lost", none, none⟩ (.done .empty) reached :=
      .missing (by decide +kernel) rfl (Memory.find_of_none noLost)
    have derived : Resolves Step.load Anyhow 4 start [.embed ⟨"lost", none, none⟩] .empty reached :=
      .done sought .nil
    exact derived.on
  have fails : Fails reached ⟨"note", some "Ghost", none⟩
      ([⟨"b/note.md"⟩].map (repeatedWarning "note")) (headingWarning "Ghost" "note") := by
    have noImage : isImageAddress "note" = false := by decide +kernel
    have first : namesakesAndPart.matching "note" = [⟨"a/Note.md"⟩, ⟨"b/note.md"⟩] := by
      decide +kernel
    have parsed : ((reached.held ⟨"a/Note.md"⟩).toOption.map fun note =>
        (Node.findHeading? "Ghost" note.body).isNone) = some true := by decide +kernel
    rcases holds : reached.held ⟨"a/Note.md"⟩ with e | note
    · rw [holds] at parsed
      cases parsed
    · rw [holds] at parsed
      have absent : Node.findHeading? "Ghost" note.body = none :=
        Option.isNone_iff_eq_none.1 (Option.some.inj parsed)
      exact .noHeading noImage rfl first holds rfl absent
  have warned : [⟨"b/note.md"⟩].map (repeatedWarning "note") =
      ["Multiple files found with the same name 'note'. Returning the first one found. " ++
        "Additional file found has path: b/note.md"] := by decide +kernel
  have failed : headingWarning "Ghost" "note" =
      "Header not found: Ghost in file with address note" := by decide +kernel
  rw [warned, failed] at fails
  have distinct : namesakesAndPart.Distinct := by decide +kernel
  have known := Memory.coherent_empty namesakesAndPart
  rcases unroll_failed_embed (B := [.embed ⟨"part", none, none⟩]) distinct known before fails with
    ⟨unlimited, -⟩ | ends
  · cases unlimited
  · exact ends

end Resolver

end Longform
