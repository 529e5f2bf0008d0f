import Mathlib.Data.List.DropRight
import Longform.Text.Basic

/-!
# Texts and their ends

The first and the last character of a text, and what is left of it without the
blanks at its ends.

* `trim_eq_self_iff`: a text is trimmed when it neither begins nor ends with a blank.
* `trim_surrounded`: blanks around a text are all that trimming takes away.
-/

namespace Longform.Text

variable {c : Char} {s t before after : List Char} {p q : Char → Bool}

/-! ## First and last characters -/

theorem startsIn_append (nonempty : s ≠ []) (t : List Char) :
    startsIn p (s ++ t) = startsIn p s := by
  cases s with
  | nil => exact absurd rfl nonempty
  | cons c s => rfl

theorem startsIn_of_notMem (absent : c ∉ s) : startsIn (· == c) s = false := by
  cases s with
  | nil => rfl
  | cons x s =>
    rw [List.mem_cons, not_or] at absent
    exact beq_false_of_ne (Ne.symm absent.1)

theorem startsIn_reverse (p : Char → Bool) (s : List Char) :
    startsIn p s.reverse = endsIn p s := by
  rw [startsIn, endsIn, List.head?_reverse]

/-- What a text does not begin with, no part at its beginning does. -/
theorem startsIn_of_prefix (begins : s <+: t) (first : startsIn p t = false) :
    startsIn p s = false := by
  obtain ⟨rest, rfl⟩ := begins
  rcases s with _ | ⟨c, s⟩
  · rfl
  · rwa [startsIn_append (List.cons_ne_nil c s)] at first

theorem startsIn_dropWhile (p : Char → Bool) (s : List Char) :
    startsIn p (s.dropWhile p) = false := by
  have stops := List.head?_dropWhile_not p s
  rw [startsIn]
  rcases first : (s.dropWhile p).head? with _ | c
  · rfl
  · rw [first] at stops
    exact stops

theorem endsIn_of_forall (none : ∀ c ∈ s, p c = false) : endsIn p s = false := by
  rw [endsIn]
  rcases last : s.getLast? with _ | c
  · rfl
  · exact none c (List.mem_of_getLast? last)

theorem endsIn_of_cons (last : endsIn p (c :: s) = false) : endsIn p s = false := by
  cases s with
  | nil => rfl
  | cons d s => rwa [endsIn, List.getLast?_cons_cons] at last

theorem endsIn_append (nonempty : t ≠ []) (s : List Char) : endsIn p (s ++ t) = endsIn p t := by
  rw [← startsIn_reverse, ← startsIn_reverse, List.reverse_append,
    startsIn_append (List.reverse_ne_nil_iff.2 nonempty)]

theorem endsIn_dropEndWhile (p : Char → Bool) (s : List Char) :
    endsIn p (dropEndWhile p s) = false := by
  rw [← startsIn_reverse, dropEndWhile, List.reverse_reverse]
  exact startsIn_dropWhile p s.reverse

theorem dropEndWhile_begins (p : Char → Bool) (s : List Char) : dropEndWhile p s <+: s :=
  List.rdropWhile_prefix p s

/-! ## Trimming -/

theorem trimStart_of_startsIn (first : startsIn isBlank s = false) : trimStart s = s := by
  cases s with
  | nil => rfl
  | cons c s => exact List.dropWhile_cons_of_neg (by simpa [startsIn] using first)

theorem trimEnd_of_endsIn (last : endsIn isBlank s = false) : trimEnd s = s := by
  rw [← startsIn_reverse] at last
  exact (congrArg List.reverse (trimStart_of_startsIn last)).trans s.reverse_reverse

theorem trimEnd_append_blanks (blank : ∀ c ∈ after, isBlank c = true) (s : List Char) :
    trimEnd (s ++ after) = trimEnd s := by
  rw [trimEnd, trimEnd, dropEndWhile, dropEndWhile, List.reverse_append,
    List.dropWhile_append_of_pos (by simpa using blank)]

theorem startsIn_blank_trim (s : List Char) : startsIn isBlank (trim s) = false :=
  startsIn_of_prefix (dropEndWhile_begins _ _) (startsIn_dropWhile _ _)

theorem endsIn_blank_trim (s : List Char) : endsIn isBlank (trim s) = false :=
  endsIn_dropEndWhile _ _

/-- A text is trimmed when it neither begins nor ends with a blank. -/
theorem trim_eq_self_iff :
    trim s = s ↔ startsIn isBlank s = false ∧ endsIn isBlank s = false := by
  constructor
  · intro trimmed
    rw [← trimmed]
    exact ⟨startsIn_blank_trim s, endsIn_blank_trim s⟩
  · rintro ⟨first, last⟩
    rw [trim, trimStart_of_startsIn first, trimEnd_of_endsIn last]

@[simp] theorem trim_trim (s : List Char) : trim (trim s) = trim s :=
  trim_eq_self_iff.2 ⟨startsIn_blank_trim s, endsIn_blank_trim s⟩

theorem trim_sublist (s : List Char) : (trim s).Sublist s :=
  (dropEndWhile_begins _ _).sublist.trans (List.dropWhile_sublist _)

/-- Blanks around a trimmed text are what trimming takes away. -/
theorem trim_surrounded (blankBefore : ∀ c ∈ before, isBlank c = true)
    (blankAfter : ∀ c ∈ after, isBlank c = true) (trimmed : trim s = s) (nonempty : s ≠ []) :
    trim (before ++ s ++ after) = s := by
  obtain ⟨first, last⟩ := trim_eq_self_iff.1 trimmed
  have whole : startsIn isBlank (s ++ after) = false := by
    rwa [startsIn_append nonempty]
  rw [trim, List.append_assoc, trimStart, List.dropWhile_append_of_pos blankBefore, ← trimStart,
    trimStart_of_startsIn whole, trimEnd_append_blanks blankAfter, trimEnd_of_endsIn last]

end Longform.Text
