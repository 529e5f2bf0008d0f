import Longform.Proofs.NoteShape
import Longform.Proofs.Resolves

/-!
# What is known of notes

A note comes into the cache by being read, so what holds of every note that is
read holds of every note that is known, once it holds of those that a run begins
with (`Resolves.everyNote`). It then holds of every note whose blocks an embed
means (`Seeks.everyNote`).
-/

namespace Longform

namespace Cache

/-- Every note that is known is as `K` says. -/
def Every (K : Note → Prop) (c : Cache) : Prop :=
  ∀ basename note, c.find? basename = some note → K note

variable {K : Note → Prop} {c : Cache} {note : Note}

theorem every_empty (K : Note → Prop) : Cache.empty.Every K := by
  intro basename note found
  cases found

theorem Every.add (h : c.Every K) (holds : K note) (basename : String) :
    (c.add basename note).Every K := by
  intro name other found
  rcases of_find?_add found with known | ⟨rfl, rfl⟩
  · exact h name other known
  · exact holds

end Cache

/-- Every note that is read is as `K` says. -/
def Note.EveryParsed (K : Note → Prop) : Prop := ∀ text note, Note.parse text = .ok note → K note

namespace Resolver

variable {σ : Type} [Store σ] {K : Note → Prop} {P : AtSplice σ} {fuel : Nat} {r r' : Resolver σ}
  {link : Link} {nodes : List Node} {out : Resolved}

/-- Loading leaves every known note as it should be, if the note that would be read is so. -/
theorem every_of_load_of_read {d : Document} {outcome : Except Error Note}
    (read : ∀ note, (Store.read d r.store).1.bind Note.parse = .ok note → K note)
    (run : (Step.load d).on r = some (outcome, r')) (known : r.cache.Every K) :
    r'.cache.Every K ∧ ∀ note, outcome = .ok note → K note := by
  rcases load_cases run with ⟨_, found, rfl, rfl⟩ | ⟨-, _, -, rfl, rfl⟩ |
    ⟨-, note, reads, rfl, rfl⟩
  · refine ⟨known, fun note' same => ?_⟩
    cases same
    exact known _ _ found
  · exact ⟨known, nofun⟩
  · refine ⟨known.add (read note reads) _, fun note' same => ?_⟩
    cases same
    exact read note reads

theorem every_of_load (parsed : Note.EveryParsed K) {d : Document} {outcome : Except Error Note}
    (run : (Step.load d).on r = some (outcome, r')) (known : r.cache.Every K) :
    r'.cache.Every K ∧ ∀ note, outcome = .ok note → K note := by
  refine every_of_load_of_read (fun note read => ?_) run known
  obtain ⟨text, reads⟩ := Note.exists_parse_of_bind read
  exact parsed text note reads

/-- A search leaves every known note as it should be, and the blocks that it finds are those that
the link means in such a note. -/
theorem Seeks.everyNote (parsed : Note.EveryParsed K) {t : Target}
    (sought : Seeks Step.load r link t r') (known : r.cache.Every K) :
    r'.cache.Every K ∧ ∀ frame nodes, t = .content frame nodes →
      ∃ d note, K note ∧ target? link d note = some (frame, nodes) := by
  cases sought with
  | figure _ _ => exact ⟨known, nofun⟩
  | noImage _ _ => exact ⟨known, nofun⟩
  | tooDeep _ _ => exact ⟨known, nofun⟩
  | missing _ _ _ => exact ⟨known, nofun⟩
  | @unloadable d warnings store e r₁ _ _ _ loaded =>
    have after := every_of_load parsed loaded known
    exact ⟨after.1, nofun⟩
  | @noHeading d warnings store note r₁ _ _ _ loaded _ =>
    have after := every_of_load parsed loaded known
    exact ⟨after.1, nofun⟩
  | @content d warnings store note _ frame nodes _ _ _ loaded aim =>
    have after := every_of_load parsed loaded known
    refine ⟨after.1, fun frame' nodes' same => ?_⟩
    cases same
    exact ⟨d, note, after.2 note rfl, aim⟩

/-- A run leaves every known note as it should be. -/
theorem Resolves.everyNote (parsed : Note.EveryParsed K)
    (h : Resolves Step.load P fuel r nodes out r') (known : r.cache.Every K) :
    r'.cache.Every K :=
  h.keeps (fun _ _ _ known => known) (fun sought known => (sought.everyNote parsed known).1) known

end Resolver

end Longform
