import Longform.Proofs.Outline

/-!
# Sections by position

A section of a note is found by its title, and what is found is one piece of the
note as it is read: the first heading with the title, and the blocks after it up
to the next heading that is not deeper.

`findHeading?_cuts_section` says so with the positions of the flat list of blocks
that the forest is made of.
-/

namespace Longform.Node

/-- Whether a block is a heading with the given title, up to case and blanks at the ends. -/
def isTitled (title : String) : Node → Bool
  | .heading _ t _ => normalizeTitle (Inline.plainText t) = normalizeTitle title
  | _ => false

/-- The position at which the section ends whose heading stands at position `i`: that of the next
heading which is not deeper, or the end of the blocks. -/
def sectionEnd (blocks : List Node) (i level : Nat) : Nat :=
  i + 1 + (blocks.drop (i + 1)).findIdx (endsSection level)

variable {blocks : List Node}

/-- What belongs to a heading is the slice from behind it to the end of its section. -/
theorem owned_drop (blocks : List Node) (i level : Nat) :
    owned level (blocks.drop (i + 1)) = blocks.extract (i + 1) (sectionEnd blocks i level) := by
  have untilEnd : owned level (blocks.drop (i + 1)) =
      (blocks.drop (i + 1)).take ((blocks.drop (i + 1)).findIdx (endsSection level)) := by
    rw [owned, List.takeWhile_eq_take_findIdx_not]
    simp only [Bool.not_not]
  rw [untilEnd, List.extract_eq_take_drop, sectionEnd, Nat.add_sub_cancel_left]

/-- A block that is no heading with the title is passed over. -/
theorem cutSection?_cons_of_not_titled {title : String} {n : Node}
    (other : isTitled title n = false) (blocks : List Node) :
    cutSection? (normalizeTitle title) (n :: blocks) =
      cutSection? (normalizeTitle title) blocks := by
  rcases level : n.level? with _ | l
  · exact cutSection?_cons_of_level? level blocks
  · cases n with
    | heading l t children =>
      have differs : ¬ normalizeTitle (Inline.plainText t) = normalizeTitle title := by
        simpa [isTitled] using other
      rw [cutSection?, if_neg differs]
    | _ => cases level

/-- The section that is cut out of a flat list begins at the first heading with the title. -/
theorem cutSection?_of_findIdx? (title : String) (blocks : List Node) :
    (blocks.findIdx? (isTitled title) = none → cutSection? (normalizeTitle title) blocks = none) ∧
      ∀ i, blocks.findIdx? (isTitled title) = some i →
        ∃ level t children, blocks[i]? = some (.heading level t children) ∧
          cutSection? (normalizeTitle title) blocks =
            some ⟨level, t, owned level (blocks.drop (i + 1))⟩ := by
  induction blocks with
  | nil =>
    refine ⟨fun _ => by rw [cutSection?], fun i found => ?_⟩
    rw [List.findIdx?_nil] at found
    cases found
  | cons n blocks ih =>
    obtain ⟨absent, present⟩ := ih
    rw [List.findIdx?_cons]
    rcases titled : isTitled title n with _ | _
    · -- The positions after the block move by one.
      rw [cutSection?_cons_of_not_titled titled]
      refine ⟨fun none => absent (Option.map_eq_none_iff.1 none), fun i found => ?_⟩
      obtain ⟨k, later, rfl⟩ := Option.map_eq_some_iff.1 found
      exact present k later
    · refine ⟨fun impossible => ?_, fun i here => ?_⟩
      · cases impossible
      · cases here
        cases n with
        | heading level t children =>
          have same : normalizeTitle (Inline.plainText t) = normalizeTitle title := by
            simpa [isTitled] using titled
          refine ⟨level, t, children, rfl, ?_⟩
          rw [cutSection?, if_pos same]
          rfl
        | _ => cases titled

/-- A section found in the forest of a flat list is cut out at positions of the list: its heading is
the first one with the title, and what it owns lists the blocks from there to the next heading that
is not deeper, or to the end. Nothing is found when no heading has the title. -/
theorem findHeading?_cuts_section (flat : Flat blocks) (title : String) :
    (blocks.findIdx? (isTitled title) = none → findHeading? title (nest blocks) = none) ∧
      ∀ i, blocks.findIdx? (isTitled title) = some i →
        ∃ h, findHeading? title (nest blocks) = some h ∧
          blocks[i]? = some (.heading h.level h.title []) ∧
          flatten h.children = blocks.extract (i + 1) (sectionEnd blocks i h.level) ∧
          h.children = nest (blocks.extract (i + 1) (sectionEnd blocks i h.level)) := by
  obtain ⟨absent, present⟩ := cutSection?_of_findIdx? title blocks
  rw [findHeading?, findNormalized?_nest flat]
  refine ⟨fun none => by rw [absent none, Option.map_none], fun i found => ?_⟩
  obtain ⟨level, t, children, here, cut⟩ := present i found
  obtain rfl := flat level t children (List.mem_of_getElem? here)
  have within : Flat (owned level (blocks.drop (i + 1))) :=
    (flat.of_sublist (List.drop_sublist _ _)).owned
  have slice := owned_drop blocks i level
  have owns := flatten_nest within
  rw [slice] at cut owns
  exact ⟨_, congrArg _ cut, here, owns, rfl⟩

/-- A title that occurs twice, and levels with one left out. -/
def detailsTwice : List Node :=
  [.paragraph [.text "lead"], .heading 1 [.text "Intro"] [], .heading 2 [.text " Details"] [],
    .paragraph [.text "x"], .heading 4 [.text "Deep"] [], .list .bulleted [[.heading 1 [] []]],
    .heading 2 [.text "Other"] [], .heading 1 [.text "details"] [], .paragraph [.text "y"]]

theorem findHeading?_cuts_section_detailsTwice :
    Flat detailsTwice ∧ detailsTwice.findIdx? (isTitled "DETAILS ") = some 2 ∧
      (∃ h, findHeading? "DETAILS " (nest detailsTwice) = some h ∧
        flatten h.children = [.paragraph [.text "x"], .heading 4 [.text "Deep"] [],
          .list .bulleted [[.heading 1 [] []]]]) ∧
      findHeading? "Absent" (nest detailsTwice) = none := by
  have flat : Flat detailsTwice := flat_flatten detailsTwice
  have first : detailsTwice.findIdx? (isTitled "DETAILS ") = some 2 := by decide +kernel
  have none : detailsTwice.findIdx? (isTitled "Absent") = none := by decide +kernel
  obtain ⟨-, present⟩ := findHeading?_cuts_section flat "DETAILS "
  obtain ⟨absent, -⟩ := findHeading?_cuts_section flat "Absent"
  obtain ⟨⟨level, t, children⟩, found, here, owns, -⟩ := present 2 first
  cases here
  exact ⟨flat, first, ⟨_, found, owns⟩, absent none⟩

end Longform.Node
