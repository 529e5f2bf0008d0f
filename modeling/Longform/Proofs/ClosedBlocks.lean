import Longform.FrontMatter
import Longform.Proofs.Trimming

/-!
# Closed blocks of front matter

Where the front matter of a note ends and its body begins, character by
character. `Closed` is a note that begins with a closed block, taken apart:
byte order marks, the line that opens the block, the lines of the block, the
line that closes it, and what follows.

* `linesKeepingEnds_eq_iff`: the lines of a text are the only way to write it as lines of which
  at most the last has no end.
* `Closed.cut?_text`, `exists_closed_of_cut?`: `cut?` takes apart the notes that begin with a
  closed block, at the first line that closes it, and no others.
* `split_accounts_for_text`: the block is what lies between the two delimiter lines, the body is
  what follows them, and every other note is all body.
-/

namespace Longform.Text

/-! ## The lines of a text -/

/-- Lines with their ends: text without a line feed and then a line feed, which only the last line
can be without. -/
inductive AreLines : List (List Char) → Prop
  | nil : AreLines []
  | last {line : List Char} (nonempty : line ≠ []) (unended : '\n' ∉ line) : AreLines [line]
  | cons {bare : List Char} {lines : List (List Char)} (free : '\n' ∉ bare)
      (more : AreLines lines) : AreLines ((bare ++ ['\n']) :: lines)

variable {bare line : List Char} {lines before after : List (List Char)}

theorem areLines_linesKeepingEnds (s : List Char) : AreLines (linesKeepingEnds s) := by
  fun_induction linesKeepingEnds s with
  | case1 => exact .nil
  | case2 s ih => exact .cons List.not_mem_nil ih
  | case3 c s feed none ih => exact .last (by simp) (by simpa using Ne.symm feed)
  | case4 c s feed line more found ih =>
    rw [found] at ih
    cases ih with
    | last nonempty unended =>
      exact .last (List.cons_ne_nil _ _) (by simp [unended, Ne.symm feed])
    | @cons bare _ free more =>
      have stillFree : '\n' ∉ c :: bare := by simp [free, Ne.symm feed]
      exact .cons stillFree more

theorem linesKeepingEnds_append (free : '\n' ∉ bare) (rest : List Char) :
    linesKeepingEnds (bare ++ '\n' :: rest) = (bare ++ ['\n']) :: linesKeepingEnds rest := by
  induction bare with
  | nil => rfl
  | cons c bare ih =>
    rw [List.mem_cons, not_or] at free
    rw [List.cons_append, linesKeepingEnds, if_neg (Ne.symm free.1), ih free.2, List.cons_append]

theorem linesKeepingEnds_of_notMem (nonempty : line ≠ []) (unended : '\n' ∉ line) :
    linesKeepingEnds line = [line] := by
  induction line with
  | nil => exact absurd rfl nonempty
  | cons c line ih =>
    rw [List.mem_cons, not_or] at unended
    rw [linesKeepingEnds, if_neg (Ne.symm unended.1)]
    rcases line with _ | ⟨d, line⟩
    · rfl
    · rw [ih (List.cons_ne_nil d line) unended.2]

/-- The lines of a text are the only way to write it as lines of which at most the last has no
end. -/
theorem linesKeepingEnds_eq_iff {s : List Char} :
    linesKeepingEnds s = lines ↔ AreLines lines ∧ lines.flatten = s := by
  constructor
  · rintro rfl
    exact ⟨areLines_linesKeepingEnds s, flatten_linesKeepingEnds s⟩
  · rintro ⟨shape, rfl⟩
    induction shape with
    | nil => rfl
    | last nonempty unended =>
      rw [List.flatten_singleton, linesKeepingEnds_of_notMem nonempty unended]
    | cons free _ ih =>
      rw [List.flatten_cons, List.append_assoc, List.singleton_append,
        linesKeepingEnds_append free, ih]

/-- Lines that all have an end may be followed by any lines. -/
theorem AreLines.append (free : ∀ line ∈ before, '\n' ∉ line) (more : AreLines after) :
    AreLines (before.map (· ++ ['\n']) ++ after) := by
  induction before with
  | nil => exact more
  | cons line before ih =>
    rw [List.forall_mem_cons] at free
    exact .cons free.1 (ih free.2)

/-- What stands before a line has an end. -/
theorem AreLines.of_append (shape : AreLines (before ++ line :: after)) :
    (∃ bares : List (List Char),
      (∀ bare ∈ bares, '\n' ∉ bare) ∧ before = bares.map (· ++ ['\n'])) ∧
      AreLines (line :: after) := by
  induction before with
  | nil => exact ⟨⟨[], by simp, rfl⟩, shape⟩
  | cons first before ih =>
    rw [List.cons_append] at shape
    generalize rest : before ++ line :: after = more at shape ih
    cases shape with
    | last => simp at rest
    | cons free shape =>
      obtain ⟨⟨bares, allFree, rfl⟩, last⟩ := ih shape
      exact ⟨⟨_ :: bares, List.forall_mem_cons.2 ⟨free, allFree⟩, rfl⟩, last⟩

theorem trimEnd_append_feed (line : List Char) : trimEnd (line ++ ['\n']) = trimEnd line :=
  trimEnd_append_blanks (List.forall_mem_singleton.2 (by decide)) line

end Longform.Text

namespace Longform.FrontMatter

open Text

/-! ## The lines of a block -/

/-- A line that closes a block: three hyphens or three full stops, and then only blanks. -/
def Closes (line : List Char) : Prop :=
  trimEnd line = "---".toList ∨ trimEnd line = "...".toList

theorem isClosing_iff {line : List Char} : isClosing line = true ↔ Closes line := by
  simp [isClosing, Closes]

instance : DecidablePred Closes := fun _ => decidable_of_iff _ isClosing_iff

theorem isClosing_append_feed (line : List Char) :
    isClosing (line ++ ['\n']) = isClosing line := by
  rw [isClosing, isClosing, trimEnd_append_feed]

/-- It makes no difference to a line of the block whether its end is there. -/
theorem forall_isClosing_feed {bares : List (List Char)} :
    (∀ line ∈ bares.map (· ++ ['\n']), isClosing line = false) ↔ ∀ bare ∈ bares, ¬ Closes bare := by
  rw [List.forall_mem_map]
  refine forall_congr' fun bare => imp_congr_right fun _ => ?_
  rw [isClosing_append_feed, Bool.eq_false_iff, Ne, isClosing_iff]

theorem cutLines?_append {block : List (List Char)} {close : List Char}
    (stays : ∀ line ∈ block, isClosing line = false) (closes : isClosing close = true)
    (body : List (List Char)) :
    cutLines? (block ++ close :: body) = some (block, body) := by
  induction block with
  | nil => rw [List.nil_append, cutLines?, if_pos closes]
  | cons line block ih =>
    rw [List.forall_mem_cons] at stays
    rw [List.cons_append, cutLines?, stays.1, if_neg Bool.false_ne_true, ih stays.2]
    rfl

/-- No line before the cut closes the block. -/
theorem isClosing_of_cutLines? {lines block body : List (List Char)}
    (cut : cutLines? lines = some (block, body)) : ∀ line ∈ block, isClosing line = false := by
  fun_induction cutLines? lines generalizing block with
  | case1 => simp at cut
  | case2 line more _ =>
    obtain ⟨rfl, -⟩ := Prod.mk.inj (Option.some.inj cut)
    exact List.forall_mem_nil _
  | case3 line more stays ih =>
    obtain ⟨⟨rest, body⟩, found, whole⟩ := Option.map_eq_some_iff.1 cut
    obtain ⟨rfl, rfl⟩ := Prod.mk.inj whole
    exact List.forall_mem_cons.2 ⟨Bool.eq_false_iff.2 stays, ih found⟩

/-! ## Notes with a closed block -/

/-- What follows a line that is without its line feed: nothing, or the line feed and the text
after it. -/
def ending : Option (List Char) → List Char
  | none => []
  | some after => '\n' :: after

/-- A note that begins with a closed block. Each line stands here without the line feed that ends
it. -/
structure Closed where
  /-- Byte order marks. -/
  marks : List Char
  /-- The line that opens the block. -/
  opening : List Char
  /-- The lines of the block. -/
  block : List (List Char)
  /-- The first line that closes the block. -/
  close : List Char
  /-- What follows the line feed after the block, if the note does not end before it. -/
  after? : Option (List Char)
  marks_only : ∀ c ∈ marks, c = '\uFEFF'
  opens : trimEnd opening = "---".toList
  opening_line : '\n' ∉ opening
  stays : ∀ line ∈ block, ¬ Closes line
  block_lines : ∀ line ∈ block, '\n' ∉ line
  closes : Closes close
  close_line : '\n' ∉ close

namespace Closed

/-- The text between the two delimiter lines. -/
def yaml (note : Closed) : List Char := (note.block.map (· ++ ['\n'])).flatten

/-- The text after the line that closes the block. -/
def body (note : Closed) : List Char := note.after?.getD []

/-- The whole note. -/
def text (note : Closed) : List Char :=
  note.marks ++ (note.opening ++ '\n' :: (note.yaml ++ (note.close ++ ending note.after?)))

/-- The line that opens the block begins with none of the marks. -/
theorem withoutMarks_text (note : Closed) :
    withoutMarks note.text =
      note.opening ++ '\n' :: (note.yaml ++ (note.close ++ ending note.after?)) := by
  obtain ⟨blanks, whole⟩ : "---".toList <+: note.opening :=
    note.opens ▸ dropEndWhile_begins isBlank note.opening
  have marks : ∀ c ∈ note.marks, (c == '\uFEFF') = true :=
    fun c hc => beq_iff_eq.2 (note.marks_only c hc)
  rw [withoutMarks, text, List.dropWhile_append_of_pos marks, ← whole]
  rfl

/-- The line that closes the block, with its end if it has one. -/
theorem exists_closing_line (note : Closed) :
    ∃ line, isClosing line = true ∧ AreLines (line :: linesKeepingEnds note.body) ∧
      line ++ note.body = note.close ++ ending note.after? := by
  have closes := isClosing_iff.2 note.closes
  rw [body]
  rcases note.after? with _ | body
  · have nonempty : note.close ≠ [] := by
      rintro empty
      simp [empty, isClosing, trimEnd, dropEndWhile] at closes
    exact ⟨note.close, closes, .last nonempty note.close_line, rfl⟩
  · refine ⟨note.close ++ ['\n'], (isClosing_append_feed _).trans closes,
      .cons note.close_line (areLines_linesKeepingEnds body), ?_⟩
    rw [List.append_assoc]
    rfl

/-- A note with a closed block is cut before and after the line that closes it. -/
theorem cut?_text (note : Closed) : cut? note.text = some (note.yaml, note.body) := by
  obtain ⟨line, closes, shape, whole⟩ := note.exists_closing_line
  have stays := forall_isClosing_feed.2 note.stays
  have lines : linesKeepingEnds (note.yaml ++ (note.close ++ ending note.after?)) =
      note.block.map (· ++ ['\n']) ++ line :: linesKeepingEnds note.body := by
    refine linesKeepingEnds_eq_iff.2 ⟨AreLines.append note.block_lines shape, ?_⟩
    rw [List.flatten_append, List.flatten_cons, flatten_linesKeepingEnds, whole, yaml]
  have opens : isOpening (note.opening ++ ['\n']) = true := by
    rw [isOpening, trimEnd_append_feed, note.opens]
    rfl
  have ends : endsIn (· == '\n') (note.opening ++ ['\n']) = true :=
    endsIn_append (List.cons_ne_nil _ _) _
  rw [cut?, withoutMarks_text, linesKeepingEnds_append note.opening_line, lines]
  simp only [opens, ends, Bool.and_self, if_true]
  rw [cutLines?_append stays closes, Option.map_some, flatten_linesKeepingEnds, yaml]

end Closed

/-- Where `cut?` succeeds the text begins with a line that opens a block, and one of the lines
after it closes the block. -/
theorem exists_opening_of_cut? {text yaml body : List Char}
    (cut : cut? text = some (yaml, body)) :
    ∃ (opening : List Char) (more block after : List (List Char)),
      '\n' ∉ opening ∧ trimEnd opening = "---".toList ∧ AreLines more ∧
        withoutMarks text = opening ++ '\n' :: more.flatten ∧
          cutLines? more = some (block, after) := by
  have whole := flatten_linesKeepingEnds (withoutMarks text)
  have shape := areLines_linesKeepingEnds (withoutMarks text)
  rw [cut?] at cut
  rcases found : linesKeepingEnds (withoutMarks text) with _ | ⟨first, more⟩
  · simp [found] at cut
  rw [found] at cut whole shape
  obtain ⟨opens, ends⟩ : isOpening first = true ∧ endsIn (· == '\n') first = true := by
    by_contra closed
    simp [closed] at cut
  simp only [opens, ends, Bool.and_self, if_true] at cut
  obtain ⟨⟨block, after⟩, cut, -⟩ := Option.map_eq_some_iff.1 cut
  cases shape with
  | last _ unended =>
    have free := endsIn_of_forall (p := (· == '\n')) (s := first)
      fun c hc => beq_false_of_ne fun feed => unended (feed ▸ hc)
    exact absurd ends (by simp [free])
  | @cons opening _ free shape =>
    rw [isOpening, trimEnd_append_feed, beq_iff_eq] at opens
    exact ⟨opening, more, block, after, free, opens, shape, by simp [← whole], cut⟩

/-- The line that closes the block, told from the lines after it. -/
theorem exists_close {line : List Char} {after : List (List Char)}
    (shape : AreLines (line :: after)) (closes : isClosing line = true) :
    ∃ (close : List Char) (after? : Option (List Char)), Closes close ∧ '\n' ∉ close ∧
      line ++ after.flatten = close ++ ending after? := by
  cases shape with
  | last nonempty unended => exact ⟨line, none, isClosing_iff.1 closes, unended, rfl⟩
  | @cons bare _ free more =>
    rw [isClosing_append_feed] at closes
    exact ⟨bare, some after.flatten, isClosing_iff.1 closes, free, by simp [ending]⟩

/-- What `cut?` takes apart is a note with a closed block. -/
theorem exists_closed_of_cut? {text yaml body : List Char} (cut : cut? text = some (yaml, body)) :
    ∃ note : Closed, note.text = text := by
  obtain ⟨opening, more, block, after, opening_line, opens, shape, whole, cut⟩ :=
    exists_opening_of_cut? cut
  have stays := isClosing_of_cutLines? cut
  obtain ⟨line, closes, rfl⟩ := cutLines?_eq_some cut
  obtain ⟨⟨bares, block_lines, rfl⟩, last⟩ := shape.of_append
  obtain ⟨close, after?, closes, close_line, rest⟩ := exists_close last closes
  have marks_only : ∀ c ∈ text.takeWhile (· == '\uFEFF'), c = '\uFEFF' := by
    intro c mark
    simpa using List.mem_takeWhile_imp mark
  refine ⟨⟨_, opening, bares, close, after?, marks_only, opens, opening_line,
    forall_isClosing_feed.1 stays, block_lines, closes, close_line⟩, ?_⟩
  calc _ = text.takeWhile (· == '\uFEFF') ++ withoutMarks text := by
        rw [whole, List.flatten_append, List.flatten_cons, rest]
        rfl
    _ = text := List.takeWhile_append_dropWhile

/-! ## Splitting -/

namespace Closed

/-- The note with the given lines in its block, between two lines of three hyphens. -/
def ofLines (block : List String) (body : String)
    (plain : ∀ line ∈ block, '\n' ∉ line.toList ∧ ¬ Closes line.toList) : Closed where
  marks := []
  opening := "---".toList
  block := block.map String.toList
  close := "---".toList
  after? := some body.toList
  marks_only := by simp
  opens := by decide
  opening_line := by decide
  stays := List.forall_mem_map.2 fun line inBlock => (plain line inBlock).2
  block_lines := List.forall_mem_map.2 fun line inBlock => (plain line inBlock).1
  closes := .inl (by decide)
  close_line := by decide

variable {block : List String} {body : String}
  {plain : ∀ line ∈ block, '\n' ∉ line.toList ∧ ¬ Closes line.toList}

theorem yaml_ofLines :
    (ofLines block body plain).yaml = (String.join (block.map (· ++ "\n"))).toList := by
  simp [yaml, ofLines, String.toList_join, List.flatMap_def, Function.comp_def]

theorem text_ofLines : (ofLines block body plain).text =
    ("---\n" ++ String.join (block.map (· ++ "\n")) ++ "---\n" ++ body).toList := by
  rw [text, yaml_ofLines]
  simp [ofLines, ending]

theorem split_text (note : Closed) : split (String.ofList note.text) =
    (parse (String.ofList note.yaml)).map (·, String.ofList note.body) := by
  rw [split, String.toList_ofList, note.cut?_text]
  dsimp only
  cases parse (String.ofList note.yaml) <;> rfl

end Closed

theorem split_of_cut?_eq_none {input : String} (uncut : cut? input.toList = none) :
    split input = .ok (empty, input) := by
  rw [split, uncut]

/-- What `split` returns, told from the text alone. Of a note with a closed block exactly the text
between the two delimiter lines is read, and exactly the text after the second is the body; the
result is an error only where reading the block is one. Every other note is all body. In
particular, any lines that close no block, between two lines of three hyphens, are what is read,
and any text after them is the body. -/
theorem split_accounts_for_text :
    (∀ note : Closed, split (String.ofList note.text) =
      (parse (String.ofList note.yaml)).map (·, String.ofList note.body)) ∧
    (∀ input : String, (∀ note : Closed, input.toList ≠ note.text) →
      split input = .ok (empty, input)) ∧
    (∀ (block : List String) (body : String),
      (∀ line ∈ block, '\n' ∉ line.toList ∧ ¬ Closes line.toList) →
      split ("---\n" ++ String.join (block.map (· ++ "\n")) ++ "---\n" ++ body) =
        (parse (String.join (block.map (· ++ "\n")))).map (·, body)) := by
  refine ⟨Closed.split_text, ?_, ?_⟩
  · intro input open_
    apply split_of_cut?_eq_none
    by_contra cut
    obtain ⟨⟨yaml, body⟩, cut⟩ := Option.ne_none_iff_exists'.1 cut
    obtain ⟨note, text⟩ := exists_closed_of_cut? cut
    exact open_ note text.symm
  · intro block body plain
    have read := (Closed.ofLines block body plain).split_text
    rwa [Closed.text_ofLines, Closed.yaml_ofLines, String.ofList_toList, String.ofList_toList,
      Closed.body, Closed.ofLines, Option.getD_some, String.ofList_toList] at read

/-- A note with a byte order mark and carriage returns, which ends without a line feed after its
block. -/
def markedNote : Closed where
  marks := ['\uFEFF']
  opening := "---\r".toList
  block := ["title: Night\r".toList, "..quiet: yes\r".toList]
  close := "...".toList
  after? := none
  marks_only := List.forall_mem_singleton.2 rfl
  opens := by decide
  opening_line := by decide
  stays := by decide
  block_lines := by decide
  closes := by decide
  close_line := by decide

theorem split_accounts_for_text_night :
    split "\uFEFF---\r\ntitle: Night\r\n..quiet: yes\r\n..." =
        (parse "title: Night\r\n..quiet: yes\r\n").map (·, "") ∧
      split "---\ntitle: Night\n--- -\n" = .ok (empty, "---\ntitle: Night\n--- -\n") ∧
      split "---\ntitle: Night\n---\n...\n" = (parse "title: Night\n").map (·, "...\n") := by
  obtain ⟨closed, unclosed, plain⟩ := split_accounts_for_text
  refine ⟨closed markedNote, unclosed _ ?_, plain ["title: Night"] "...\n" (by decide)⟩
  intro note whole
  have cut := note.cut?_text
  rw [← whole, show cut? "---\ntitle: Night\n--- -\n".toList = none by decide] at cut
  exact absurd cut (by simp)

end Longform.FrontMatter
