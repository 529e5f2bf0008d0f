/-!
# Text

Everything this library reads is a list of characters while it is being taken
apart, and a `String` once it is a value. This module holds what all readers
share: the Unicode blank characters and trimming, cutting at a separator, and
the division into lines.

* `cut?_eq_some`: a cut loses nothing but the separator it cut at.
* `intercalate_splitOn`: the pieces between separators, joined again, are the text.
-/

namespace Longform.Text

/-! ## Blank characters -/

/-- The characters with the Unicode property `White_Space`. -/
def isBlank (c : Char) : Bool :=
  let n := c.toNat
  (9 ≤ n && n ≤ 13) || n == 0x20 || n == 0x85 || n == 0xA0 || n == 0x1680
    || (0x2000 ≤ n && n ≤ 0x200A) || n == 0x2028 || n == 0x2029 || n == 0x202F
    || n == 0x205F || n == 0x3000

/-- A space or a tab, the only characters that indent. -/
def isIndent (c : Char) : Bool := c == ' ' || c == '\t'

/-- The ASCII punctuation characters, which a backslash makes literal. -/
def isPunctuation (c : Char) : Bool :=
  let n := c.toNat
  (33 ≤ n && n ≤ 47) || (58 ≤ n && n ≤ 64) || (91 ≤ n && n ≤ 96) || (123 ≤ n && n ≤ 126)

/-! ## Trimming -/

/-- Drops the longest tail whose characters all satisfy `p`. -/
def dropEndWhile (p : Char → Bool) (s : List Char) : List Char :=
  (s.reverse.dropWhile p).reverse

/-- Drops leading blanks. -/
def trimStart (s : List Char) : List Char := s.dropWhile isBlank

/-- Drops trailing blanks. -/
def trimEnd (s : List Char) : List Char := dropEndWhile isBlank s

/-- Drops the blanks at both ends. -/
def trim (s : List Char) : List Char := trimEnd (trimStart s)

/-- Whether the last character satisfies `p`; false of the empty text. -/
def endsIn (p : Char → Bool) (s : List Char) : Bool := s.getLast?.any p

/-- Whether the first character satisfies `p`; false of the empty text. -/
def startsIn (p : Char → Bool) (s : List Char) : Bool := s.head?.any p

/-! ## Cutting -/

/-- What follows `lead` in `s`, when `s` begins with `lead`. -/
def after? : (lead s : List Char) → Option (List Char)
  | [], s => some s
  | _ :: _, [] => none
  | a :: lead, b :: s => if a = b then after? lead s else none

/-- What comes before `tail` in `s`, when `s` ends with `tail`. -/
def before? (tail s : List Char) : Option (List Char) :=
  (after? tail.reverse s.reverse).map List.reverse

theorem after?_eq_some {lead s r : List Char} (h : after? lead s = some r) : s = lead ++ r := by
  fun_induction after? lead s with
  | case1 => simpa using h
  | case2 => simp at h
  | case3 a lead s ih => simp [ih h]
  | case4 => simp at h

theorem after?_append (lead r : List Char) : after? lead (lead ++ r) = some r := by
  induction lead with
  | nil => cases r <;> rfl
  | cons a lead ih => simpa [after?] using ih

/-- The text before and after the first occurrence of `sep` in `s`. -/
def cut? (sep : List Char) : (s : List Char) → Option (List Char × List Char)
  | [] => (after? sep []).map ([], ·)
  | c :: s =>
    match after? sep (c :: s) with
    | some rest => some ([], rest)
    | none => (cut? sep s).map fun (before, rest) => (c :: before, rest)

theorem cut?_eq_some {sep s a b : List Char} (h : cut? sep s = some (a, b)) :
    s = a ++ sep ++ b := by
  fun_induction cut? sep s generalizing a with
  | case1 =>
    obtain ⟨r, hr, e⟩ := Option.map_eq_some_iff.1 h
    obtain ⟨rfl, rfl⟩ := Prod.mk.inj e
    simpa using after?_eq_some hr
  | case2 c s rest hr =>
    obtain ⟨rfl, rfl⟩ := Prod.mk.inj (Option.some.inj h)
    simpa using after?_eq_some hr
  | case3 c s _ ih =>
    obtain ⟨⟨x, y⟩, hxy, e⟩ := Option.map_eq_some_iff.1 h
    obtain ⟨rfl, rfl⟩ := Prod.mk.inj e
    simp [ih hxy]

/-- Whether `sep` occurs in `s`. -/
def contains (sep s : List Char) : Bool := (cut? sep s).isSome

/-- The pieces of `s` between the occurrences of the character `sep`; never empty. -/
def splitOn (sep : Char) : (s : List Char) → List (List Char)
  | [] => [[]]
  | c :: s =>
    if c = sep then [] :: splitOn sep s
    else match splitOn sep s with
      | [] => [[c]]
      | piece :: pieces => (c :: piece) :: pieces

theorem splitOn_ne_nil (sep : Char) (s : List Char) : splitOn sep s ≠ [] := by
  cases s with
  | nil => simp [splitOn]
  | cons c s => simp only [splitOn]; split <;> (try split) <;> simp

theorem intercalate_splitOn (sep : Char) (s : List Char) :
    List.intercalate [sep] (splitOn sep s) = s := by
  induction s with
  | nil => rfl
  | cons c s ih =>
    simp only [splitOn]
    split
    case isTrue h =>
      cases hs : splitOn sep s with
      | nil => exact absurd hs (splitOn_ne_nil sep s)
      | cons p ps => rw [hs] at ih; simp [List.intercalate_cons_cons, ih, h]
    case isFalse =>
      split
      next hs => exact absurd hs (splitOn_ne_nil sep s)
      next p ps hs =>
        rw [hs] at ih
        cases ps with
        | nil => simpa using ih
        | cons q qs => simpa [List.intercalate_cons_cons] using ih

/-- Everything after the last occurrence of the character `sep`, and what comes before it. -/
def cutLast? (sep : Char) (s : List Char) : Option (List Char × List Char) :=
  (cut? [sep] s.reverse).map fun (leaf, folders) => (folders.reverse, leaf.reverse)

/-- The maximal runs of characters that are not blank. -/
def words (s : List Char) : List (List Char) :=
  (s.splitBy (fun a b => isBlank a == isBlank b)).filter fun run => !startsIn isBlank run

/-! ## Lines -/

/-- The lines of a text, each with the line feed that ends it. -/
def linesKeepingEnds : (s : List Char) → List (List Char)
  | [] => []
  | c :: s =>
    if c = '\n' then [c] :: linesKeepingEnds s
    else match linesKeepingEnds s with
      | [] => [[c]]
      | line :: more => (c :: line) :: more

theorem flatten_linesKeepingEnds (s : List Char) : (linesKeepingEnds s).flatten = s := by
  induction s with
  | nil => rfl
  | cons c s ih =>
    simp only [linesKeepingEnds]
    split
    · simp [ih]
    · split
      next h => rw [h] at ih; simpa using ih
      next h => rw [h] at ih; simpa using ih

/-- A line without the line feed, or carriage return and line feed, that ends it. -/
def withoutEnd (line : List Char) : List Char :=
  match before? ['\n'] line with
  | none => line
  | some bare => (before? ['\r'] bare).getD bare

/-- The lines of a text without the ends of the lines. -/
def lines (s : List Char) : List (List Char) := (linesKeepingEnds s).map withoutEnd

/-! ## ASCII case -/

/-- Whether two texts differ at most in the case of ASCII letters. -/
def eqIgnoringAsciiCase (a b : List Char) : Bool := a.map Char.toLower == b.map Char.toLower

end Longform.Text
