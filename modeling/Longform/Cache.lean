import Longform.Note

/-!
# The notes of one export

The notes that have been read during an export, by base name. The first note of
a name stays.

`find?_add` and `of_find?_add`: what a name stands for after a note was added.
-/

namespace Longform

/-- Notes by base name. -/
structure Cache where
  notes : List (String × Note)
  deriving Inhabited

namespace Cache

def empty : Cache := ⟨[]⟩

/-- The note of a name. -/
def find? (c : Cache) (basename : String) : Option Note := c.notes.lookup basename

def contains (c : Cache) (basename : String) : Bool := (c.find? basename).isSome

/-- How many names have a note. -/
def size (c : Cache) : Nat := c.notes.length

/-- Adds a note under a name that has none. -/
def add (c : Cache) (basename : String) (note : Note) : Cache :=
  if c.contains basename then c else ⟨c.notes ++ [(basename, note)]⟩

theorem find?_add (c : Cache) (basename name : String) (note : Note) :
    (c.add basename note).find? name =
      if name = basename then some ((c.find? basename).getD note) else c.find? name := by
  by_cases h : c.contains basename = true
  · obtain ⟨n, hn⟩ := Option.isSome_iff_exists.1 h
    simp only [add, h, if_true]
    split
    · next e => simp [e, hn]
    · rfl
  · have hn : c.notes.lookup basename = none := by
      simpa only [contains, find?, Bool.not_eq_true, Option.isSome_eq_false_iff,
        Option.isNone_iff_eq_none] using h
    simp only [add, if_neg h, find?, List.lookup_append, hn, Option.getD_none]
    split
    · next e => simp [e, hn]
    · next e =>
      rw [List.lookup_cons, beq_eq_false_iff_ne.2 e]
      simp

/-- What is known after a note was added was known before, or it is the note. -/
theorem of_find?_add {c : Cache} {basename name : String} {note found : Note}
    (h : (c.add basename note).find? name = some found) :
    c.find? name = some found ∨ (name = basename ∧ found = note) := by
  rw [find?_add] at h
  split at h
  · next same =>
    rcases known : c.find? basename with _ | first
    · rw [known] at h
      exact Or.inr ⟨same, (Option.some.inj h).symm⟩
    · rw [known] at h
      rw [same, known]
      exact Or.inl h
  · exact Or.inl h

end Cache

end Longform
