import Longform.Proofs.ImageNames
import Longform.Toml.Scalar

/-!
# Numbers that are read back

The decimal digits of a number are read as this number, when it fits into 64 bits with
a sign.

* `cutMoment?_digits`: digits that end their line begin no date and no time.
* `float?_digits`: digits alone are no number with a point or an exponent.
* `ofToken?_toDigits`: the number they make is the one they were written for.
-/

namespace Longform.Toml

open Text

variable {s t rest : List Char} {c sep : Char} {n width : Nat}

/-- A text has no other characters than decimal digits. -/
def IsDigits (s : List Char) : Prop := ∀ c ∈ s, c.isDigit = true

theorem isDigits_toDigits (n : Nat) : IsDigits (Nat.toDigits 10 n) := fun _ mem =>
  Nat.isDigit_of_mem_toDigits (by decide) (by decide) mem

theorem IsDigits.ne (digits : IsDigits s) (mem : c ∈ s) (other : sep.isDigit = false) :
    c ≠ sep := by
  rintro rfl
  rw [digits c mem] at other
  cases other

theorem IsDigits.notMem (digits : IsDigits s) (other : sep.isDigit = false) : sep ∉ s := fun mem =>
  digits.ne mem other rfl

/-! ## No dates and times -/

/-- What follows some of the digits is more digits. -/
theorem exists_of_cutNumber? (digits : IsDigits s)
    (found : cutNumber? width (s ++ '\n' :: rest) = some (n, t)) :
    ∃ more, IsDigits more ∧ t = more ++ '\n' :: rest := by
  rw [cutNumber?] at found
  split at found
  · next taken =>
    obtain ⟨-, all⟩ := taken
    obtain ⟨-, rfl⟩ := Prod.mk.inj (Option.some.inj found)
    by_cases few : width ≤ s.length
    · exact ⟨s.drop width, fun c mem => digits c (List.mem_of_mem_drop mem),
        List.drop_append_of_le_length few⟩
    · have newline : '\n' ∈ (s ++ '\n' :: rest).take width := by
        rw [List.take_append, List.mem_append]
        refine .inr ?_
        obtain ⟨k, more⟩ : ∃ k, width - s.length = k + 1 := ⟨width - s.length - 1, by omega⟩
        rw [more, List.take_succ_cons]
        exact List.mem_cons_self ..
      exact absurd (List.all_eq_true.1 all _ newline) (by decide)
  · cases found

theorem after?_digits (digits : IsDigits s) (other : sep.isDigit = false) (ne : sep ≠ '\n') :
    after? [sep] (s ++ '\n' :: rest) = none := by
  cases s with
  | nil => rw [List.nil_append, after?, if_neg ne]
  | cons c s => rw [List.cons_append, after?, if_neg (digits.ne (List.mem_cons_self ..) other).symm]

theorem cutMoment?_digits (digits : IsDigits s) : cutMoment? (s ++ '\n' :: rest) = none := by
  have noDate : afterDate? (s ++ '\n' :: rest) = none := by
    rw [afterDate?]
    rcases year : cutNumber? 4 (s ++ '\n' :: rest) with _ | ⟨n, t⟩
    · rfl
    · obtain ⟨more, digits', rfl⟩ := exists_of_cutNumber? digits year
      simp [after?_digits digits' (by decide : '-'.isDigit = false) (by decide)]
  have noMinute : afterMinute? (s ++ '\n' :: rest) = none := by
    rw [afterMinute?]
    rcases hour : cutNumber? 2 (s ++ '\n' :: rest) with _ | ⟨n, t⟩
    · rfl
    · obtain ⟨more, digits', rfl⟩ := exists_of_cutNumber? digits hour
      simp [after?_digits digits' (by decide : ':'.isDigit = false) (by decide)]
  simp [cutMoment?, afterMoment?, noDate, afterTime?, noMinute]

/-! ## No other numbers -/

theorem cutSign_digits (digits : IsDigits s) : cutSign s = (false, s) := by
  unfold cutSign
  split
  · exact absurd (List.mem_cons_self ..) (digits.notMem (by decide : '-'.isDigit = false))
  · exact absurd (List.mem_cons_self ..) (digits.notMem (by decide : '+'.isDigit = false))
  · rfl

theorem isFloat_digits (digits : IsDigits s) : isFloat s = false := by
  have noPower : s.any (fun c => c == 'e' || c == 'E') = false := by
    refine List.any_eq_false.2 fun c mem => ?_
    rw [Bool.or_eq_true, beq_iff_eq, beq_iff_eq, not_or]
    exact ⟨digits.ne mem (by decide), digits.ne mem (by decide)⟩
  have noPoint : ∀ p, (s.takeWhile p).contains '.' = false := fun p =>
    Bool.eq_false_iff.2 fun has => digits.notMem (by decide)
      ((List.takeWhile_sublist p).subset (List.contains_iff_mem.1 has))
  rw [isFloat]
  dsimp only
  rw [noPoint, noPower, if_neg Bool.false_ne_true, Bool.and_false, Bool.false_and]

theorem float?_digits (digits : IsDigits s) : float? s = none := by
  rw [float?, cutSign_digits digits]
  dsimp only
  rw [if_neg, if_neg, isFloat_digits digits, if_neg Bool.false_ne_true]
  all_goals rintro rfl
  all_goals exact absurd (digits 'n' (by decide)) (by decide)

/-! ## The number -/

theorem head?_toDigits (positive : 0 < n) : (Nat.toDigits 10 n).head? ≠ some '0' := by
  induction n using Nat.strongRecOn with
  | ind n ih =>
    rw [Nat.toDigits_eq_if (by decide)]
    split
    · next small =>
      rw [List.head?_cons]
      exact fun zero => (Nat.ne_of_gt positive) (Nat.digitChar_eq_zero.1 (Option.some.inj zero))
    · next large =>
      rw [List.head?_append, Option.or_of_isSome (List.isSome_head?.2 Nat.toDigits_ne_nil)]
      exact ih (n / 10) (by omega) (by omega)

theorem isWhole_toDigits (n : Nat) : isWhole (Nat.toDigits 10 n) = true := by
  have digits := isDigits_toDigits n
  have barred : isBarred (Nat.toDigits 10 n) = true := by
    rw [isBarred, splitOn_of_not_mem (digits.notMem (by decide)), List.all_cons, List.all_nil,
      Bool.and_true, Bool.and_eq_true, Bool.not_eq_true', List.isEmpty_eq_false_iff]
    exact ⟨Nat.toDigits_ne_nil, List.all_eq_true.2 digits⟩
  rw [isWhole, barred, Bool.true_and]
  rcases Nat.eq_zero_or_pos n with rfl | positive
  · rfl
  · rw [bne_iff_ne.2 (head?_toDigits positive), Bool.true_or]

theorem integer?_toDigits (fits : n < wordSize 63) :
    integer? (Nat.toDigits 10 n) = some (n : Int) := by
  have digits := isDigits_toDigits n
  have noBars : withoutBars (Nat.toDigits 10 n) = Nat.toDigits 10 n := by
    rw [withoutBars, List.filter_eq_self]
    exact fun c mem => bne_iff_ne.2 (digits.ne mem (by decide))
  have value : (ofDigits (Nat.toDigits 10 n) : Int) = n :=
    congrArg _ (Nat.ofDigitChars_toDigits (by decide) (by decide))
  have inRange : -(wordSize 63 : Int) ≤ n ∧ (n : Int) < wordSize 63 := by omega
  unfold integer?
  split
  · next same => exact absurd (digits 'x' (by rw [same]; simp)) (by decide)
  · next same => exact absurd (digits 'o' (by rw [same]; simp)) (by decide)
  · next same => exact absurd (digits 'b' (by rw [same]; simp)) (by decide)
  · -- `simp` would compute the bounds.
    rw [cutSign_digits digits]
    dsimp only
    rw [isWhole_toDigits, if_pos rfl, noBars, value, if_neg Bool.false_ne_true,
      Option.bind_eq_bind, Option.bind_some, if_pos inRange]

theorem ofToken?_toDigits (fits : n < wordSize 63) :
    Value.ofToken? (Nat.toDigits 10 n) = some (.integer n) := by
  have digits := isDigits_toDigits n
  have noTrue : Nat.toDigits 10 n ≠ "true".toList := fun same =>
    digits.notMem (by decide : 'e'.isDigit = false) (by rw [same]; decide)
  have noFalse : Nat.toDigits 10 n ≠ "false".toList := fun same =>
    digits.notMem (by decide : 'e'.isDigit = false) (by rw [same]; decide)
  rw [Value.ofToken?, if_neg noTrue, if_neg noFalse, float?_digits digits, integer?_toDigits fits]
  rfl

end Longform.Toml
