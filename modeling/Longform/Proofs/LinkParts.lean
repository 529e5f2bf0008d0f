import Mathlib.Data.Bool.AllAny
import Longform.Proofs.LinkText

/-!
# The parts of a link

What is read as a link has the parts that were written, and no parts that could
not have been.

* `tidy_of_parse?`: a link that is read is tidy.
* `parse?_render_iff`: the links that are read as they are written are the
  separable ones.
* `parseLine?_surrounded`: a line with an embed is read as the text in its brackets.
* `reading_tells_parts` puts these together with block marks, which are read over.
-/

namespace Longform

open Text

namespace Text

variable {sep s t : List Char}

/-! ## Texts in texts -/

theorem contains_iff : contains sep s = true ↔ sep <:+: s := by
  rw [contains]
  induction s with
  | nil => rw [cut?, Option.isSome_map, isSome_after?_iff, List.prefix_nil, List.infix_nil]
  | cons c s ih =>
    rw [cut?, List.infix_cons_iff, ← isSome_after?_iff]
    split
    · next found => simp [found]
    · next none => simp [none, ih]

theorem before?_append (s tail : List Char) : before? tail (s ++ tail) = some s := by
  rw [before?, List.reverse_append, after?_append, Option.map_some, List.reverse_reverse]

theorem before?_eq_some_iff {tail : List Char} : before? tail s = some t ↔ s = t ++ tail := by
  refine ⟨fun found => ?_, fun whole => whole ▸ before?_append t tail⟩
  obtain ⟨rest, read, rfl⟩ := Option.map_eq_some_iff.1 found
  simpa using congrArg List.reverse (after?_eq_some read)

end Text

namespace Link

variable {link : Link} {a s t inner line before after : List Char} {part : String}

/-! ## What is read -/

/-- A part that is read is what its text is without the blanks at its ends. -/
theorem of_part?_eq_some (read : part? s = some part) : IsTight part ∧ part.toList = trim s := by
  rw [part?] at read
  split at read
  · cases read
  · next c cs text =>
    cases read
    refine ⟨⟨?_, ?_⟩, ?_⟩
    · intro empty
      exact absurd (String.ofList_eq_empty_iff.1 empty) (List.cons_ne_nil c cs)
    · rw [String.toList_ofList, ← text, trim_trim]
    · rw [String.toList_ofList, text]

theorem mem_of_part? (read : part? s = some part) {c : Char} (mem : c ∈ part.toList) : c ∈ s := by
  rw [(of_part?_eq_some read).2] at mem
  exact (trim_sublist s).subset mem

theorem caret_not_mem_of_part? (read : part? (s.takeWhile (· ≠ '^')) = some part) :
    '^' ∉ part.toList := by
  intro mem
  have stays := List.all_eq_true.1 List.all_takeWhile '^' (mem_of_part? read mem)
  exact absurd stays (by decide)

/-- What is read of a text without a bar is a tidy link without a label. -/
theorem tidy_of_parse?_target (noBar : '|' ∉ t) (read : parse? t = some link) :
    link.Tidy ∧ link.label = none := by
  rcases cut : cut? ['#'] t with _ | ⟨address, heading⟩
  · have noHash := not_mem_of_cut?_none cut
    rw [parse?_address noBar noHash] at read
    obtain ⟨part, isPart, rfl⟩ := Option.map_eq_some_iff.1 read
    refine ⟨⟨(of_part?_eq_some isPart).1, fun c mem => ?_, nofun, nofun⟩, rfl⟩
    have inText := (List.takeWhile_sublist _).subset (mem_of_part? isPart mem)
    exact ⟨fun bar => noBar (bar ▸ inText), fun hash => noHash (hash ▸ inText)⟩
  · have noHash := not_mem_of_cut? cut
    have whole : t = address ++ '#' :: heading := by simpa using cut?_eq_some cut
    rw [whole] at noBar read
    rw [parse?_heading noBar noHash] at read
    obtain ⟨part, isPart, rfl⟩ := Option.map_eq_some_iff.1 read
    refine ⟨⟨(of_part?_eq_some isPart).1, fun c mem => ?_, fun h isHeading => ?_, nofun⟩, rfl⟩
    · have inAddress := mem_of_part? isPart mem
      refine ⟨?_, fun hash => noHash (hash ▸ inAddress)⟩
      rintro rfl
      exact noBar (List.mem_append_left _ inAddress)
    · refine ⟨(of_part?_eq_some isHeading).1, fun c mem => ⟨?_, ?_⟩⟩
      · rintro rfl
        have inHeading := (List.takeWhile_sublist _).subset (mem_of_part? isHeading mem)
        exact noBar (List.mem_append_right _ (List.mem_cons_of_mem _ inHeading))
      · rintro rfl
        exact caret_not_mem_of_part? isHeading mem

/-- What is read as a link is tidy. -/
theorem tidy_of_parse? (read : parse? inner = some link) : link.Tidy := by
  rcases cut : cut? ['|'] inner with _ | ⟨target, label⟩
  · exact (tidy_of_parse?_target (not_mem_of_cut?_none cut) read).1
  · have whole : inner = target ++ '|' :: label := by simpa using cut?_eq_some cut
    have noBar := not_mem_of_cut? cut
    rw [whole, parse?_label noBar] at read
    obtain ⟨unlabelled, readTarget, rfl⟩ := Option.map_eq_some_iff.1 read
    obtain ⟨tidy, -⟩ := tidy_of_parse?_target noBar readTarget
    exact ⟨tidy.address, tidy.addressMarks, tidy.heading,
      fun _ isLabel => (of_part?_eq_some isLabel).1⟩

/-! ## Links that are read as they are written -/

/-- Where no heading follows, what is read as an address has no caret. -/
theorem caret_not_mem_address (noBar : '|' ∉ a) (noHash : '#' ∉ a) (read : parse? a = some link) :
    '^' ∉ link.address.toList := by
  rw [parse?_address noBar noHash] at read
  obtain ⟨part, isPart, rfl⟩ := Option.map_eq_some_iff.1 read
  exact caret_not_mem_of_part? isPart

theorem parse?_render_iff : parse? link.render.toList = some link ↔ link.Separable := by
  refine ⟨fun read => ?_, Separable.parse?_render⟩
  have tidy := tidy_of_parse? read
  refine ⟨tidy, fun noHeading => ?_⟩
  have noBar : '|' ∉ link.address.toList := fun mem => (tidy.addressMarks _ mem).1 rfl
  have noHash : '#' ∉ link.address.toList := fun mem => (tidy.addressMarks _ mem).2 rfl
  rw [toList_render, target, noHeading, Option.elim, List.append_nil] at read
  rcases labelled : link.label with _ | label
  · rw [labelled, Option.elim, List.append_nil] at read
    exact caret_not_mem_address noBar noHash read
  · rw [labelled, Option.elim, parse?_label noBar] at read
    obtain ⟨unlabelled, readAddress, same⟩ := Option.map_eq_some_iff.1 read
    have noCaret := caret_not_mem_address noBar noHash readAddress
    rw [← same]
    exact noCaret

/-! ## Lines -/

/-- A line that holds an embed and nothing else is read as what stands in the brackets. -/
theorem parseLine?_surrounded (blankBefore : ∀ c ∈ before, isBlank c = true)
    (blankAfter : ∀ c ∈ after, isBlank c = true) (noOpening : ¬ ['[', '['] <:+: inner)
    (noClosing : ¬ [']', ']'] <:+: inner) :
    parseLine? (before ++ (['!', '[', '['] ++ (inner ++ [']', ']'])) ++ after) = parse? inner := by
  have trimmed : trim (['!', '[', '['] ++ (inner ++ [']', ']'])) =
      ['!', '[', '['] ++ (inner ++ [']', ']']) := by
    refine trim_eq_self_iff.2 ⟨rfl, ?_⟩
    rw [← List.append_assoc, endsIn_append (List.cons_ne_nil _ _)]
    rfl
  have opening : contains ['[', '['] inner = false :=
    eq_false_of_ne_true fun found => noOpening (contains_iff.1 found)
  have closing : contains [']', ']'] inner = false :=
    eq_false_of_ne_true fun found => noClosing (contains_iff.1 found)
  rw [parseLine?, trim_surrounded blankBefore blankAfter trimmed (List.cons_ne_nil _ _),
    after?_append]
  change (before? [']', ']'] (inner ++ [']', ']'])).bind _ = _
  rw [before?_append, Option.bind_some, opening, closing]
  rfl

theorem exists_parse?_of_parseLine? (read : parseLine? line = some link) :
    ∃ inner, parse? inner = some link := by
  obtain ⟨rest, -, read⟩ := Option.bind_eq_some_iff.1 read
  obtain ⟨inner, -, read⟩ := Option.bind_eq_some_iff.1 read
  split at read
  · cases read
  · exact ⟨inner, read⟩

/-- The links that are read as they are written are those of which no part ends another early. A
block that is marked behind the address or the heading of such a link is read over, and a line that
holds its embed is read as the link, if no brackets are doubled in it. Whatever is read as a link,
or as a line with an embed, its parts are tidy. -/
theorem reading_tells_parts :
    (∀ link : Link, parse? link.render.toList = some link ↔ link.Separable) ∧
    (∀ link : Link, link.Separable →
      (∀ block : List Char, (∀ c ∈ block, c ≠ '|' ∧ c ≠ '#') →
        parse? (link.target ++ '^' :: block ++ link.label.elim [] ('|' :: ·.toList)) =
          some link) ∧
      ∀ before after : List Char, (∀ c ∈ before, isBlank c = true) →
        (∀ c ∈ after, isBlank c = true) → ¬ ['[', '['] <:+: link.render.toList →
        ¬ [']', ']'] <:+: link.render.toList →
        parseLine? (before ++ (['!', '[', '['] ++ (link.render.toList ++ [']', ']'])) ++ after) =
          some link) ∧
    ∀ (s : List Char) (link : Link), parse? s = some link ∨ parseLine? s = some link →
      link.Tidy := by
  refine ⟨fun _ => parse?_render_iff, fun link separable => ⟨?_, ?_⟩, ?_⟩
  · intro block noMarks
    exact separable.parse?_marked (.of_block noMarks)
  · intro before after blankBefore blankAfter noOpening noClosing
    rw [parseLine?_surrounded blankBefore blankAfter noOpening noClosing]
    exact separable.parse?_render
  · rintro s link (read | read)
    · exact tidy_of_parse? read
    · obtain ⟨inner, read⟩ := exists_parse?_of_parseLine? read
      exact tidy_of_parse? read

/-- A link with marks inside its heading and its label. -/
def oldNotes : Link := ⟨"Old notes", some "Part #2 [draft]", some "see | x^2"⟩

theorem reading_tells_parts_oldNotes :
    oldNotes.Separable ∧ oldNotes.render = "Old notes#Part #2 [draft]|see | x^2" ∧
      parse? "Old notes#Part #2 [draft]|see | x^2".toList = some oldNotes ∧
      parse? "Old notes#Part #2 [draft]^id^7|see | x^2".toList = some oldNotes ∧
      parseLine? "\t ![[Old notes#Part #2 [draft]|see | x^2]] \n".toList = some oldNotes ∧
      parse? " a^b # ^id| ".toList = some ⟨"a^b", none, none⟩ ∧
      Tidy ⟨"a^b", none, none⟩ ∧ ¬ Separable ⟨"a^b", none, none⟩ := by
  obtain ⟨asWritten, whole, tidy⟩ := reading_tells_parts
  have render : oldNotes.render = "Old notes#Part #2 [draft]|see | x^2" := by decide +kernel
  have read : parse? oldNotes.render.toList = some oldNotes := by decide +kernel
  have separable : oldNotes.Separable := (asWritten oldNotes).1 read
  obtain ⟨marked, line⟩ := whole oldNotes separable
  have block := marked "id^7".toList (List.all_iff_forall_prop.1 (by decide +kernel))
  have ofLine := line "\t ".toList " \n".toList (List.all_iff_forall_prop.1 (by decide +kernel))
    (List.all_iff_forall_prop.1 (by decide +kernel)) (by decide +kernel) (by decide +kernel)
  have caret : parse? " a^b # ^id| ".toList = some ⟨"a^b", none, none⟩ := by decide +kernel
  refine ⟨separable, render, ?_, block, ?_, caret, tidy _ _ (.inl caret), ?_⟩
  · rw [← render]
    exact read
  · rw [render] at ofLine
    exact ofLine
  · rw [← asWritten]
    decide +kernel

end Link

end Longform
