import Longform.Proofs.ImageNames
import Longform.Proofs.Trimming

/-!
# Links are read as they are written

`Link.render` writes a link in the form that `Link.parse?` reads. A link is got
back whenever its parts are not blank at their ends and hold none of the marks
that would end them early (`Link.Separable.parse?_render`). A block mark behind
the address or the heading does not change this (`Link.Separable.parse?_marked`).
-/

namespace Longform

open Text

/-! ## Cutting -/

namespace Text

variable {c : Char} {s : List Char}

theorem toList_ne_nil {t : String} (nonempty : t ≠ "") : t.toList ≠ [] :=
  fun none => nonempty (String.toList_eq_nil_iff.1 none)

theorem cut?_of_not_mem (h : c ∉ s) : cut? [c] s = none := by
  induction s with
  | nil => rfl
  | cons x s ih =>
    rw [List.mem_cons, not_or] at h
    rw [cut?_cons_of_ne h.1, ih h.2]
    rfl

theorem after?_brackets (closed : after? [']', ']'] (c :: s) = none)
    (lastOpen : endsIn (· == ']') (c :: s) = false) (t : List Char) :
    after? [']', ']'] (c :: (s ++ t)) = none := by
  cases s with
  | nil =>
    have noBracket : c ≠ ']' := by simpa [endsIn] using lastOpen
    exact if_neg (Ne.symm noBracket)
  | cons d s =>
    have two (u : List Char) : after? [']', ']'] (c :: d :: u) =
        if ']' = c then if ']' = d then some u else none else none := rfl
    rw [two] at closed
    rw [List.cons_append, two]
    by_cases here : ']' = c
    · rw [if_pos here] at closed ⊢
      by_cases next : ']' = d
      · rw [if_pos next] at closed
        cases closed
      · exact if_neg next
    · exact if_neg here

/-- The mark that closes a link is found behind its text. -/
theorem cut?_brackets (closed : contains [']', ']'] s = false)
    (lastOpen : endsIn (· == ']') s = false) (rest : List Char) :
    cut? [']', ']'] (s ++ ']' :: ']' :: rest) = some (s, rest) := by
  induction s with
  | nil => rfl
  | cons c s ih =>
    rw [contains, cut?] at closed
    split at closed
    · cases closed
    · next here =>
      have later : contains [']', ']'] s = false := by
        rwa [Option.isSome_map] at closed
      rw [List.cons_append, cut?, after?_brackets here lastOpen]
      dsimp only
      rw [ih later (endsIn_of_cons lastOpen)]
      rfl

end Text

/-! ## Parts of links -/

namespace Link

/-- The text is not empty and has no blanks at its ends. -/
structure IsTight (s : String) : Prop where
  nonempty : s ≠ ""
  trimmed : trim s.toList = s.toList

/-- The text is not empty, has no blanks at its ends, and stands on one line. -/
structure IsPart (s : String) : Prop where
  nonempty : s ≠ ""
  trimmed : trim s.toList = s.toList
  oneLine : '\n' ∉ s.toList

theorem IsPart.isTight {s : String} (isPart : IsPart s) : IsTight s :=
  ⟨isPart.nonempty, isPart.trimmed⟩

theorem IsTight.part?_eq {s : String} (tight : IsTight s) : part? s.toList = some s := by
  rw [part?, tight.trimmed]
  split
  · next none => exact absurd none (toList_ne_nil tight.nonempty)
  · next c cs same => rw [← same, String.ofList_toList]

/-! ## Reading part by part -/

variable {a t : List Char}

/-- The label is read apart from what stands before it. -/
theorem parse?_label (noBar : '|' ∉ t) (s : List Char) :
    parse? (t ++ '|' :: s) = (parse? t).map fun link => { link with label := part? s } := by
  rw [parse?, parse?, cut?_append noBar, cut?_of_not_mem noBar, Option.map_map]
  rfl

theorem parse?_heading (noBar : '|' ∉ a ++ '#' :: t) (noHash : '#' ∉ a) :
    parse? (a ++ '#' :: t) =
      (part? a).map fun address => ⟨address, part? (t.takeWhile (· ≠ '^')), none⟩ := by
  rw [parse?, cut?_of_not_mem noBar]
  dsimp only
  rw [cut?_append noHash]

theorem parse?_address (noBar : '|' ∉ a) (noHash : '#' ∉ a) :
    parse? a = (part? (a.takeWhile (· ≠ '^'))).map fun address => ⟨address, none, none⟩ := by
  rw [parse?, cut?_of_not_mem noBar]
  dsimp only
  rw [cut?_of_not_mem noHash]

/-! ## Block marks -/

/-- Nothing, or a caret and a text in which no other part of a link begins. -/
structure IsBlockMark (mark : List Char) : Prop where
  caret : startsIn (· ≠ '^') mark = false
  noBar : '|' ∉ mark
  noHash : '#' ∉ mark

theorem isBlockMark_nil : IsBlockMark [] := ⟨rfl, List.not_mem_nil, List.not_mem_nil⟩

theorem IsBlockMark.of_block {block : List Char} (noMarks : ∀ c ∈ block, c ≠ '|' ∧ c ≠ '#') :
    IsBlockMark ('^' :: block) := by
  refine ⟨rfl, ?_, ?_⟩
  · exact List.not_mem_cons_of_ne_of_not_mem (by decide) fun mem => (noMarks _ mem).1 rfl
  · exact List.not_mem_cons_of_ne_of_not_mem (by decide) fun mem => (noMarks _ mem).2 rfl

/-- What a block mark stands behind is told from it. -/
theorem takeWhile_caret_append {s mark : List Char} (absent : '^' ∉ s)
    (isMark : IsBlockMark mark) : (s ++ mark).takeWhile (· ≠ '^') = s := by
  induction s with
  | nil =>
    rcases mark with _ | ⟨c, block⟩
    · rfl
    · exact List.takeWhile_cons_of_neg (by simpa [startsIn] using isMark.caret)
  | cons c s ih =>
    rw [List.mem_cons, not_or] at absent
    rw [List.cons_append, List.takeWhile_cons_of_pos (by simpa using Ne.symm absent.1),
      ih absent.2]

/-! ## Links that are read whole -/

/-- The parts that a link has are not blank at their ends, and hold none of the marks that would end
them. -/
structure Tidy (link : Link) : Prop where
  address : IsTight link.address
  addressMarks : ∀ c ∈ link.address.toList, c ≠ '|' ∧ c ≠ '#'
  heading : ∀ heading ∈ link.heading, IsTight heading ∧ ∀ c ∈ heading.toList, c ≠ '|' ∧ c ≠ '^'
  label : ∀ label ∈ link.label, IsTight label

/-- No part of a link ends another early. Only a heading after it shows that a caret is part of the
address. -/
structure Separable (link : Link) : Prop extends Tidy link where
  addressCaret : link.heading = none → '^' ∉ link.address.toList

/-- No part of a link ends another early, and all of them stand on one line. -/
structure Legible (link : Link) : Prop where
  address : IsPart link.address
  addressMarks : ∀ c ∈ link.address.toList, c ≠ '|' ∧ c ≠ '#' ∧ c ≠ '^'
  heading : ∀ heading ∈ link.heading, IsPart heading ∧ ∀ c ∈ heading.toList, c ≠ '|' ∧ c ≠ '^'
  label : ∀ label ∈ link.label, IsPart label

/-- The address and the heading, as they are written. -/
def target (link : Link) : List Char :=
  link.address.toList ++ link.heading.elim [] ('#' :: ·.toList)

theorem toList_render (link : Link) :
    link.render.toList = link.target ++ link.label.elim [] ('|' :: ·.toList) := by
  obtain ⟨address, heading, label⟩ := link
  cases heading <;> cases label <;> simp [render, target]

theorem mem_marked {o : Option String} {mark c : Char} :
    c ∈ o.elim [] (mark :: ·.toList) ↔ ∃ s ∈ o, c = mark ∨ c ∈ s.toList := by
  cases o <;> simp

variable {link : Link} {mark : List Char}

namespace Separable

theorem bar_not_mem (separable : link.Separable) (isMark : IsBlockMark mark) :
    '|' ∉ link.target ++ mark := by
  rw [target, List.mem_append, List.mem_append]
  rintro ((inAddress | inHeading) | inMark)
  · exact (separable.addressMarks _ inAddress).1 rfl
  · obtain ⟨heading, same, eq | inHeading⟩ := mem_marked.1 inHeading
    · cases eq
    · exact ((separable.heading heading same).2 _ inHeading).1 rfl
  · exact isMark.noBar inMark

theorem parse?_target (separable : link.Separable) (isMark : IsBlockMark mark) :
    parse? (link.target ++ mark) = some { link with label := none } := by
  have noBar := separable.bar_not_mem isMark
  have noHash : '#' ∉ link.address.toList := fun mem => (separable.addressMarks _ mem).2 rfl
  obtain ⟨address, heading, label⟩ := link
  cases heading with
  | none =>
    have noCaret : '^' ∉ address.toList := separable.addressCaret rfl
    have noHash' : '#' ∉ address.toList ++ mark := by
      rw [List.mem_append, not_or]
      exact ⟨noHash, isMark.noHash⟩
    rw [target, Option.elim, List.append_nil] at noBar ⊢
    rw [parse?_address noBar noHash', takeWhile_caret_append noCaret isMark,
      separable.address.part?_eq]
    rfl
  | some heading =>
    obtain ⟨tight, noMark⟩ := separable.heading heading rfl
    have noCaret : '^' ∉ heading.toList := fun mem => (noMark _ mem).2 rfl
    rw [target, Option.elim, List.append_assoc, List.cons_append] at noBar ⊢
    rw [parse?_heading noBar noHash, takeWhile_caret_append noCaret isMark,
      separable.address.part?_eq, tight.part?_eq]
    rfl

/-- A link is read as it is written, whatever block is marked in it. -/
theorem parse?_marked (separable : link.Separable) (isMark : IsBlockMark mark) :
    parse? (link.target ++ mark ++ link.label.elim [] ('|' :: ·.toList)) = some link := by
  have whole := separable.parse?_target isMark
  have noBar := separable.bar_not_mem isMark
  obtain ⟨address, heading, label⟩ := link
  cases label with
  | none =>
    rw [Option.elim, List.append_nil]
    exact whole
  | some label =>
    rw [Option.elim, parse?_label noBar, whole, (separable.label label rfl).part?_eq]
    rfl

/-- A link is read as it is written. -/
theorem parse?_render (separable : link.Separable) : parse? link.render.toList = some link := by
  have unmarked := separable.parse?_marked isBlockMark_nil
  rw [List.append_nil] at unmarked
  rw [toList_render]
  exact unmarked

end Separable

namespace Legible

theorem separable (legible : link.Legible) : link.Separable where
  address := legible.address.isTight
  addressMarks c mem := ⟨(legible.addressMarks c mem).1, (legible.addressMarks c mem).2.1⟩
  addressCaret _ mem := (legible.addressMarks _ mem).2.2 rfl
  heading heading mem := ⟨(legible.heading heading mem).1.isTight, (legible.heading heading mem).2⟩
  label label mem := (legible.label label mem).isTight

theorem lineEnd_not_mem (legible : link.Legible) : '\n' ∉ link.render.toList := by
  intro mem
  rw [toList_render, target, List.mem_append, List.mem_append] at mem
  rcases mem with (inAddress | inHeading) | inLabel
  · exact legible.address.oneLine inAddress
  · obtain ⟨heading, same, eq | inHeading⟩ := mem_marked.1 inHeading
    · cases eq
    · exact (legible.heading heading same).1.oneLine inHeading
  · obtain ⟨label, same, eq | inLabel⟩ := mem_marked.1 inLabel
    · cases eq
    · exact (legible.label label same).oneLine inLabel

end Legible

end Link

end Longform
