import Longform.Proofs.MemoryNotes

/-!
# What the address of an image finds

Images are found by their file names and notes by their base names, and the
extension of the address alone tells which is meant. So the address of an image
finds no note: a document that is called like it has the extension of an image.

`not_note_of_findImage` says this of every address of an image but one sort. The
address of a drawing is searched with the extension of a picture behind it; where
it ends in a slash, what is searched is a file name without an extension.
-/

namespace Longform

open Text Longform.Path

/-! ## Cutting -/

namespace Text

variable {c : Char} {s t before rest a b : List Char}

theorem isSome_after?_iff : (after? t s).isSome = true ↔ t <+: s := by
  constructor
  · intro found
    obtain ⟨rest, follows⟩ := Option.isSome_iff_exists.1 found
    exact ⟨rest, (after?_eq_some follows).symm⟩
  · rintro ⟨rest, rfl⟩
    rw [after?_append]
    rfl

theorem cut?_cons_self (c : Char) (s : List Char) : cut? [c] (c :: s) = some ([], s) := by
  simp [cut?, after?]

theorem cut?_cons_of_ne {x : Char} (h : c ≠ x) (s : List Char) :
    cut? [c] (x :: s) = (cut? [c] s).map fun (before, rest) => (x :: before, rest) := by
  simp [cut?, after?, h]

theorem not_mem_of_cut? (h : cut? [c] s = some (before, rest)) : c ∉ before := by
  induction s generalizing before with
  | nil => cases h
  | cons x s ih =>
    by_cases same : c = x
    · subst same
      rw [cut?_cons_self] at h
      cases h
      exact List.not_mem_nil
    · rw [cut?_cons_of_ne same] at h
      obtain ⟨⟨before', rest'⟩, inner, eq⟩ := Option.map_eq_some_iff.1 h
      cases eq
      exact List.not_mem_cons_of_ne_of_not_mem same (ih inner)

theorem not_mem_of_cut?_none (h : cut? [c] s = none) : c ∉ s := by
  induction s with
  | nil => exact List.not_mem_nil
  | cons x s ih =>
    by_cases same : c = x
    · subst same
      rw [cut?_cons_self] at h
      cases h
    · rw [cut?_cons_of_ne same] at h
      exact List.not_mem_cons_of_ne_of_not_mem same (ih (Option.map_eq_none_iff.1 h))

theorem cut?_append (h : c ∉ before) (rest : List Char) :
    cut? [c] (before ++ c :: rest) = some (before, rest) := by
  induction before with
  | nil => exact cut?_cons_self c rest
  | cons x before ih =>
    simp only [List.mem_cons, not_or] at h
    rw [List.cons_append, cut?_cons_of_ne h.1, ih h.2]
    rfl

theorem cutLast?_append (h : c ∉ rest) (before : List Char) :
    cutLast? c (before ++ c :: rest) = some (before, rest) := by
  have flipped : (before ++ c :: rest).reverse = rest.reverse ++ c :: before.reverse := by simp
  rw [cutLast?, flipped, cut?_append (by simpa using h)]
  simp

/-- A text is cut at the last place where the character stands. -/
theorem cutLast?_eq_some (h : cutLast? c s = some (before, rest)) :
    s = before ++ c :: rest ∧ c ∉ rest := by
  obtain ⟨⟨leaf, folders⟩, cut, eq⟩ := Option.map_eq_some_iff.1 h
  cases eq
  have whole := congrArg List.reverse (cut?_eq_some cut)
  refine ⟨by simpa using whole, ?_⟩
  simpa using not_mem_of_cut? cut

theorem splitOn_of_not_mem (h : c ∉ s) : splitOn c s = [s] := by
  induction s with
  | nil => rfl
  | cons x s ih =>
    simp only [List.mem_cons, not_or] at h
    rw [splitOn, if_neg (Ne.symm h.1), ih h.2]

theorem splitOn_append (c : Char) (a b : List Char) :
    splitOn c (a ++ c :: b) = splitOn c a ++ splitOn c b := by
  induction a with
  | nil => simp [splitOn]
  | cons x a ih =>
    rw [List.cons_append, splitOn, splitOn]
    split
    · rw [ih, List.cons_append]
    · rw [ih]
      rcases pieces : splitOn c a with _ | ⟨piece, more⟩
      · exact absurd pieces (splitOn_ne_nil c a)
      · rfl

theorem notMem_of_mem_splitOn {piece : List Char} (mem : piece ∈ splitOn c s) : c ∉ piece := by
  induction s generalizing piece with
  | nil =>
    rw [splitOn, List.mem_singleton] at mem
    rw [mem]
    exact List.not_mem_nil
  | cons x s ih =>
    rw [splitOn] at mem
    split at mem
    · rcases List.mem_cons.1 mem with rfl | mem
      · exact List.not_mem_nil
      · exact ih mem
    · next other =>
      rcases pieces : splitOn c s with _ | ⟨first, others⟩
      · exact absurd pieces (splitOn_ne_nil c s)
      · simp only [pieces] at mem ih
        rcases List.mem_cons.1 mem with rfl | mem
        · exact List.not_mem_cons_of_ne_of_not_mem (Ne.symm other) (ih (List.mem_cons_self ..))
        · exact ih (List.mem_cons_of_mem _ mem)

theorem sublist_of_mem_splitOn {piece : List Char} (mem : piece ∈ splitOn c s) :
    piece.Sublist s := by
  induction s generalizing piece with
  | nil =>
    rw [splitOn, List.mem_singleton] at mem
    exact mem ▸ List.Sublist.refl _
  | cons x s ih =>
    rw [splitOn] at mem
    split at mem
    · rcases List.mem_cons.1 mem with rfl | mem
      · exact List.nil_sublist _
      · exact (ih mem).cons x
    · rcases pieces : splitOn c s with _ | ⟨first, others⟩
      · exact absurd pieces (splitOn_ne_nil c s)
      · simp only [pieces] at mem ih
        rcases List.mem_cons.1 mem with rfl | mem
        · exact (ih (List.mem_cons_self ..)).cons_cons x
        · exact (ih (List.mem_cons_of_mem _ mem)).cons x

/-! ## ASCII case -/

/-- Only letters become other characters in lowercase. -/
theorem eq_of_toLower_eq {x : Char} (noLetter : c.toNat < 65) (h : x.toLower = c) : x = c := by
  delta Char.toLower at h
  split at h
  · next letter =>
    subst h
    have low : 65 ≤ x.val.toNat := UInt32.le_iff_toNat_le.1 letter.1
    have high : x.val.toNat ≤ 90 := UInt32.le_iff_toNat_le.1 letter.2
    change (x.val + ('a'.val - 'A'.val)).toNat < 65 at noLetter
    have gap : ('a'.val - 'A'.val).toNat = 32 := rfl
    rw [UInt32.toNat_add, gap] at noLetter
    omega
  · exact h

theorem toLower_of_lt (noLetter : c.toNat < 65) : c.toLower = c := by
  delta Char.toLower
  split
  · next letter =>
    have low : 65 ≤ c.val.toNat := UInt32.le_iff_toNat_le.1 letter.1
    change c.val.toNat < 65 at noLetter
    omega
  · rfl

theorem eqIgnoringAsciiCase_iff :
    eqIgnoringAsciiCase a b = true ↔ a.map Char.toLower = b.map Char.toLower := by
  rw [eqIgnoringAsciiCase, beq_iff_eq]

/-- Where there are no letters, case makes no difference. -/
theorem eq_of_eqIgnoringAsciiCase (noLetter : ∀ c ∈ b, c.toNat < 65)
    (same : eqIgnoringAsciiCase a b = true) : a = b := by
  have right : b.map Char.toLower = b :=
    (List.map_congr_left fun c mem => toLower_of_lt (noLetter c mem)).trans (List.map_id b)
  have lower := (eqIgnoringAsciiCase_iff.1 same).trans right
  have left : a.map Char.toLower = a := by
    refine (List.map_congr_left fun c mem => ?_).trans (List.map_id a)
    have among : c.toLower ∈ b := lower ▸ List.mem_map_of_mem mem
    exact (eq_of_toLower_eq (noLetter _ among) rfl).symm
  exact left.symm.trans lower

theorem eqIgnoringAsciiCase_comm (a b : List Char) :
    eqIgnoringAsciiCase a b = eqIgnoringAsciiCase b a := by
  rw [eqIgnoringAsciiCase, eqIgnoringAsciiCase, Bool.beq_comm]

/-- Texts that differ in case have the same characters that are no letters. -/
theorem mem_of_eqIgnoringAsciiCase (noLetter : c.toNat < 65)
    (same : eqIgnoringAsciiCase a b = true) (mem : c ∈ a) : c ∈ b := by
  have inside : c.toLower ∈ b.map Char.toLower := by
    rw [← eqIgnoringAsciiCase_iff.1 same]
    exact List.mem_map_of_mem mem
  obtain ⟨x, among, eq⟩ := List.mem_map.1 inside
  rw [toLower_of_lt noLetter] at eq
  rw [← eq_of_toLower_eq noLetter eq]
  exact among

end Text

/-! ## Extensions -/

namespace Path

variable {path leaf stem extension : List Char}

/-- What follows the last slash of a path, or the whole path where it has none. -/
def LastPiece (path leaf : List Char) : Prop :=
  '/' ∉ leaf ∧ (path = leaf ∨ ∃ folders, path = folders ++ '/' :: leaf)

theorem LastPiece.append (h : LastPiece path leaf) {more : List Char} (noSlash : '/' ∉ more) :
    LastPiece (path ++ more) (leaf ++ more) := by
  obtain ⟨apart, rfl | ⟨folders, rfl⟩⟩ := h
  · exact ⟨by simp [apart, noSlash], .inl rfl⟩
  · exact ⟨by simp [apart, noSlash], .inr ⟨folders, by simp⟩⟩

theorem LastPiece.splitOn (h : LastPiece path leaf) :
    ∃ folders, Text.splitOn '/' path = folders ++ [leaf] := by
  obtain ⟨apart, rfl | ⟨folders, rfl⟩⟩ := h
  · exact ⟨[], splitOn_of_not_mem apart⟩
  · exact ⟨Text.splitOn '/' folders, by rw [splitOn_append, splitOn_of_not_mem apart]⟩

/-- The part after the last dot, where something stands before the dot. -/
theorem cutExtension_eq_some_iff :
    (cutExtension leaf).2 = some extension ↔
      ∃ stem, stem ≠ [] ∧ leaf = stem ++ '.' :: extension ∧ '.' ∉ extension ∧
        leaf ≠ ['.', '.'] := by
  rw [cutExtension]
  by_cases up : leaf = ['.', '.']
  · simp [up]
  rw [if_neg up]
  constructor
  · intro h
    split at h
    · cases h
    · cases h
    · next stem extension' named cut =>
      cases h
      obtain ⟨whole, last⟩ := cutLast?_eq_some cut
      exact ⟨stem, named, whole, last, up⟩
  · rintro ⟨stem, named, rfl, last, -⟩
    rw [cutLast?_append last]
    cases stem with
    | nil => exact (named rfl).elim
    | cons c stem => rfl

/-- The file name of a path is its last piece, if that has an extension. -/
theorem extension?_of_lastPiece {path : String} (h : LastPiece path.toList leaf)
    (cut : (cutExtension leaf).2 = some extension) :
    extension? path = some (String.ofList extension) := by
  obtain ⟨stem, named, whole, last, up⟩ := cutExtension_eq_some_iff.1 cut
  have inside : component? leaf = some (.name (String.ofList leaf)) := by
    have notIdle : ¬ (leaf = [] ∨ leaf = ['.']) := by
      rintro (rfl | dot)
      · simp at whole
      · rw [dot] at whole
        cases stem with
        | nil => exact named rfl
        | cons c stem => simp at whole
    rw [component?, if_neg notIdle, if_neg up]
  have fileName : fileName? path = some (String.ofList leaf) := by
    obtain ⟨folders, pieces⟩ := h.splitOn
    rw [fileName?, components, pieces, List.filterMap_append, List.filterMap_cons, inside]
    simp [Component.name?]
  rw [extension?, fileName]
  simp [String.toList_ofList, cut]

/-- A text without slashes is its own file name, if it has one. -/
theorem fileName?_of_noSlash {text name : String} (noSlash : '/' ∉ text.toList)
    (h : fileName? text = some name) : name = text := by
  rw [fileName?, components, splitOn_of_not_mem noSlash, List.filterMap_cons,
    List.filterMap_nil] at h
  rcases piece : component? text.toList with _ | component
  · rw [piece] at h
    split at h <;> cases h
  · rw [piece] at h
    rw [component?] at piece
    split at piece
    · cases piece
    · split at piece
      · cases piece
        simp [Component.name?] at h
      · cases piece
        simp only [List.getLast?_append, List.getLast?_singleton, Option.some_or, Option.bind_some,
          Component.name?, Option.some.injEq, String.ofList_toList] at h
        exact h.symm

/-- The extension of a path is that of its file name. -/
theorem cutExtension_of_fileName? {path name e : String} (named : fileName? path = some name)
    (found : extension? path = some e) : (cutExtension name.toList).2 = some e.toList := by
  obtain ⟨file, named', found⟩ := Option.bind_eq_some_iff.1 found
  obtain ⟨extension, cut, same⟩ := Option.bind_eq_some_iff.1 found
  cases same
  cases named.symm.trans named'
  rw [cut, String.toList_ofList]

theorem cutExtension_of_extension? {name e : String} (noSlash : '/' ∉ name.toList)
    (h : extension? name = some e) : (cutExtension name.toList).2 = some e.toList := by
  obtain ⟨file, named, -⟩ := Option.bind_eq_some_iff.1 h
  refine cutExtension_of_fileName? ?_ h
  rw [named, fileName?_of_noSlash noSlash named]

theorem hasExtension_iff_exists {path extension : String} :
    hasExtension path extension = true ↔
      ∃ e, extension? path = some e ∧ eqIgnoringAsciiCase e.toList extension.toList = true := by
  rw [hasExtension, Option.any_eq_true]

/-- Names that differ in case have extensions that do. -/
theorem exists_cutExtension_of_eqIgnoringAsciiCase {name leaf : List Char}
    (same : eqIgnoringAsciiCase name leaf = true) (cut : (cutExtension name).2 = some extension)
    (proper : extension ≠ []) :
    ∃ e, (cutExtension leaf).2 = some e ∧ eqIgnoringAsciiCase extension e = true := by
  obtain ⟨stem, named, rfl, last, -⟩ := cutExtension_eq_some_iff.1 cut
  have lower := eqIgnoringAsciiCase_iff.1 same
  rw [List.map_append, List.map_cons] at lower
  obtain ⟨stem', rest, rfl, stems, tails⟩ := List.map_eq_append_iff.1 lower.symm
  obtain ⟨dot, e, rfl, dots, extensions⟩ := List.map_eq_cons_iff.1 tails
  have dotStays : ('.' : Char).toLower = '.' := toLower_of_lt (by decide)
  rw [dotStays] at dots
  obtain rfl : dot = '.' := eq_of_toLower_eq (by decide) dots
  have same' : eqIgnoringAsciiCase extension e = true :=
    eqIgnoringAsciiCase_iff.2 extensions.symm
  have named' : stem' ≠ [] := by
    rintro rfl
    exact named (List.map_eq_nil_iff.1 stems.symm)
  have proper' : e ≠ [] := by
    rintro rfl
    exact proper (List.map_eq_nil_iff.1 extensions.symm)
  refine ⟨e, cutExtension_eq_some_iff.2 ⟨stem', named', rfl, ?_, ?_⟩, same'⟩
  · intro mem
    exact last (mem_of_eqIgnoringAsciiCase (by decide) (eqIgnoringAsciiCase_iff.2 extensions) mem)
  · intro up
    have lengths := congrArg List.length up
    have before := List.length_pos_iff.2 named'
    have behind := List.length_pos_iff.2 proper'
    simp only [List.length_append, List.length_cons, List.length_nil] at lengths
    omega

end Path

/-! ## Addresses of images -/

namespace Lookup

open Longform.Path

/-- What is looked for is the last piece of the address. -/
theorem lastPiece_parts (address : String) : LastPiece address.toList (parts address).2 := by
  have whole := List.takeWhile_append_dropWhile (p := (· == '/')) (l := address.toList)
  rw [parts]
  split
  · next folders leaf cut =>
    obtain ⟨bare, last⟩ := cutLast?_eq_some cut
    rw [bare, ← List.append_assoc] at whole
    exact ⟨last, .inr ⟨_, whole.symm⟩⟩
  · next uncut =>
    have noSlash : '/' ∉ address.toList.dropWhile (· == '/') := by
      have flipped := not_mem_of_cut?_none (Option.map_eq_none_iff.1 uncut)
      simpa using flipped
    refine ⟨noSlash, ?_⟩
    rcases List.eq_nil_or_concat (address.toList.takeWhile (· == '/')) with none | ⟨more, last, eq⟩
    · rw [none, List.nil_append] at whole
      exact .inl whole.symm
    · have slash : (last == '/') = true :=
        List.all_eq_true.1 List.all_takeWhile last (by rw [eq]; simp)
      rw [eq, beq_iff_eq.1 slash, List.concat_eq_append, List.append_assoc] at whole
      exact .inr ⟨more, whole.symm⟩

/-- Something is looked for, unless the address is empty or ends in a slash. -/
theorem parts_ne_nil {address : String} (some : address ≠ "")
    (closed : endsIn (· == '/') address.toList = false) : (parts address).2 ≠ [] := by
  intro empty
  have piece := lastPiece_parts address
  rw [empty] at piece
  obtain ⟨-, whole | ⟨folders, whole⟩⟩ := piece
  · exact some (String.toList_eq_nil_iff.1 whole)
  · rw [whole] at closed
    simp [endsIn] at closed

/-- A document that is called like an address of an image is no note. -/
theorem not_note_of_matchesLeaf {address : String} {d : Document}
    (image : isImageAddress address = true)
    (fits : matchesLeaf d true (parts address).2 = true) : hasExtension d.name "md" = false := by
  refine eq_false_of_ne_true fun isNote => ?_
  have piece := lastPiece_parts address
  have same : eqIgnoringAsciiCase d.name.toList (parts address).2 = true := fits
  have noSlash : '/' ∉ d.name.toList :=
    fun mem => piece.1 (mem_of_eqIgnoringAsciiCase (by decide) same mem)
  obtain ⟨e, extension, isMd⟩ := hasExtension_iff_exists.1 isNote
  have proper : e.toList ≠ [] := by
    intro empty
    rw [empty] at isMd
    exact absurd isMd (by decide)
  obtain ⟨e', cut, sameExtension⟩ := exists_cutExtension_of_eqIgnoringAsciiCase same
    (cutExtension_of_extension? noSlash extension) proper
  obtain ⟨imageExtension, among, isImage⟩ := List.any_eq_true.1 image
  obtain ⟨e'', extension'', isImage⟩ := hasExtension_iff_exists.1 isImage
  rw [extension?_of_lastPiece piece cut] at extension''
  cases extension''
  rw [String.toList_ofList] at isImage
  have clash : "md".toList.map Char.toLower = imageExtension.toList.map Char.toLower := by
    rw [← eqIgnoringAsciiCase_iff.1 isMd, eqIgnoringAsciiCase_iff.1 sameExtension,
      eqIgnoringAsciiCase_iff.1 isImage]
  have apart : ∀ ext ∈ imageExtensions,
      "md".toList.map Char.toLower ≠ ext.toList.map Char.toLower := by decide
  exact apart _ among clash

end Lookup

/-- The address by which the picture of a drawing, or any other image, is searched. -/
def pictureAddress (address : String) : String :=
  if hasExtension address "excalidraw" then address ++ ".png" else address

/-- The address is that of a drawing and ends in a slash. -/
def isOpenDrawing (address : String) : Bool :=
  hasExtension address "excalidraw" && endsIn (· == '/') address.toList

/-- An image is searched by the address of an image. -/
theorem isImageAddress_pictureAddress {address : String} (image : isImageAddress address = true)
    (closed : isOpenDrawing address = false) : isImageAddress (pictureAddress address) = true := by
  rw [pictureAddress]
  split
  · next drawing =>
    rw [isOpenDrawing, drawing, Bool.true_and] at closed
    have piece := Lookup.lastPiece_parts address
    have named : (Lookup.parts address).2 ≠ [] := by
      refine Lookup.parts_ne_nil ?_ closed
      rintro rfl
      exact absurd drawing (by decide +kernel)
    have behind : LastPiece (address ++ ".png").toList
        ((Lookup.parts address).2 ++ ".png".toList) := by
      rw [String.toList_append]
      exact piece.append (by decide)
    have cut : (cutExtension ((Lookup.parts address).2 ++ ".png".toList)).2 =
        some "png".toList := by
      refine cutExtension_eq_some_iff.2 ⟨_, named, rfl, by decide, ?_⟩
      intro up
      have lengths := congrArg List.length up
      rw [List.length_append] at lengths
      exact absurd lengths (by simp)
    have png : hasExtension (address ++ ".png") "png" = true := by
      rw [hasExtension_iff_exists]
      exact ⟨_, extension?_of_lastPiece behind cut, by decide⟩
    exact List.any_eq_true.2 ⟨"png", by decide, png⟩
  · exact image

namespace Memory

/-- The address of an image finds no note, unless it is that of a drawing and ends in a slash. -/
theorem not_note_of_findImage {m store : Memory} {address : String} {warnings : List String}
    {d : Document} (image : isImageAddress address = true)
    (closed : isOpenDrawing address = false)
    (found : Store.findImage address m = (⟨some d, warnings⟩, store)) :
    hasExtension d.name "md" = false := by
  have picture := isImageAddress_pictureAddress image closed
  change (Lookup.search (pictureAddress address) (m.documents.map (·.1)), m) = _ at found
  simp only [Lookup.search, picture] at found
  split at found
  · cases found
  · next first others eq =>
    cases found
    have mem : d ∈ (m.documents.map (·.1)).filter
        (Lookup.matchesAddress (pictureAddress address) true) := by
      rw [eq]
      exact List.mem_cons_self ..
    have fits := (List.mem_filter.1 mem).2
    rw [Lookup.matchesAddress, Bool.and_eq_true] at fits
    exact Lookup.not_note_of_matchesLeaf picture fits.1

end Memory

end Longform
