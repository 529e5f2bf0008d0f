import Mathlib.Data.Bool.AllAny
import Longform.Proofs.Folders
import Longform.Proofs.LinkText

/-!
# Letter case in addresses

The folders of an address are compared in Unicode lowercase, its last name only up
to the case of ASCII letters.

* `lowercaseAfter_eq_iff`: of the words in ASCII letters other than `k`, a text has
  in lowercase the ones that it has up to ASCII case.
* `isImageAddress_lowered`: so whether an address names an image, which its
  extension decides, does not change in lowercase.
* `found_search_of_alike`: addresses that are the same in lowercase find the same
  document where their last names agree in ASCII case. Where these do not, no document
  is found by both.
-/

namespace Longform

open Text

namespace Text

variable {before s t stem word a b : List Char} {x c : Char}

/-! ## Words in lowercase -/

/-- The characters that only ASCII letters and they themselves become in lowercase. -/
def IsBasic (c : Char) : Prop := c.toNat < 128 ∧ c ≠ 'k'

instance (c : Char) : Decidable (IsBasic c) :=
  inferInstanceAs (Decidable (c.toNat < 128 ∧ c ≠ 'k'))

theorem toLower_of_not_ascii (high : 128 ≤ x.toNat) : x.toLower = x := by
  delta Char.toLower
  split
  · next letter =>
    have low : x.val.toNat ≤ 90 := UInt32.le_iff_toNat_le.1 letter.2
    change 128 ≤ x.val.toNat at high
    omega
  · rfl

theorem lowercaseChar_eq_iff (basic : IsBasic c) : lowercaseChar x = c ↔ x.toLower = c := by
  rcases Nat.lt_or_ge x.toNat 128 with ascii | high
  · rw [lowercaseChar, if_pos ascii]
  · refine iff_of_false ?_ ?_
    · rintro rfl
      rcases lowercaseChar_of_not_ascii high with kelvin | high
      · exact basic.2 kelvin
      · exact absurd basic.1 (Nat.not_lt.2 high)
    · rw [toLower_of_not_ascii high]
      rintro rfl
      exact absurd basic.1 (Nat.not_lt.2 high)

/-- A character becomes one in lowercase, or it is the dotted capital I and becomes two. -/
theorem lowercaseAfter_cons (before : List Char) (x : Char) (s : List Char) :
    ∃ d more, lowercaseAfter before (x :: s) = d :: (more ++ lowercaseAfter (x :: before) s) ∧
      ((more = [] ∧ ∀ c, IsBasic c → (d = c ↔ x.toLower = c)) ∨
        d = 'i' ∧ more = ['\u0307'] ∧ 128 ≤ x.toNat) := by
  rw [lowercaseAfter]
  by_cases sigma : x = 'Σ'
  · rw [if_pos sigma]
    refine ⟨_, [], rfl, .inl ⟨rfl, fun c basic => ?_⟩⟩
    rw [sigma]
    refine iff_of_false ?_ ?_ <;> rintro rfl
    · split at basic <;> exact absurd basic (by decide)
    · exact absurd basic (by decide)
  · rw [if_neg sigma]
    by_cases dotted : x = 'İ'
    · rw [if_pos dotted]
      exact ⟨_, _, rfl, .inr ⟨rfl, rfl, by rw [dotted]; decide⟩⟩
    · rw [if_neg dotted]
      exact ⟨_, [], rfl, .inl ⟨rfl, fun c basic => lowercaseChar_eq_iff basic⟩⟩

/-- A text is a word in lowercase if it is up to ASCII case. -/
theorem lowercaseAfter_eq_iff (basic : ∀ c ∈ word, IsBasic c) :
    lowercaseAfter before s = word ↔ s.map Char.toLower = word := by
  induction s generalizing before word with
  | nil => rfl
  | cons x s ih =>
    obtain ⟨d, more, whole, images⟩ := lowercaseAfter_cons before x s
    rw [whole, List.map_cons]
    rcases word with _ | ⟨c, word⟩
    · exact iff_of_false (List.cons_ne_nil _ _) (List.cons_ne_nil _ _)
    · rw [List.forall_mem_cons] at basic
      rw [List.cons_eq_cons, List.cons_eq_cons]
      rcases images with ⟨rfl, one⟩ | ⟨-, rfl, high⟩
      · exact and_congr (one c basic.1) (ih basic.2)
      · refine iff_of_false ?_ ?_
        · rintro ⟨-, two⟩
          have accent := basic.2 '\u0307' (by rw [← two]; exact List.mem_cons_self ..)
          exact absurd accent (by decide)
        · rintro ⟨first, -⟩
          rw [toLower_of_not_ascii high] at first
          have ascii := basic.1.1
          rw [← first] at ascii
          omega

/-- Text that stays before a word in lowercase is text before the word. -/
theorem exists_split_of_lowercaseAfter (basic : ∀ c ∈ word, IsBasic c) (some : word ≠ [])
    (ends : lowercaseAfter before s = stem ++ word) :
    ∃ a b, s = a ++ b ∧ b.map Char.toLower = word ∧ (a = [] → stem = []) := by
  induction s generalizing before stem with
  | nil =>
    rw [lowercaseAfter] at ends
    exact absurd (List.append_eq_nil_iff.1 ends.symm).2 some
  | cons x s ih =>
    rcases stem with _ | ⟨e, stem⟩
    · exact ⟨[], x :: s, rfl, (lowercaseAfter_eq_iff basic).1 ends, fun _ => rfl⟩
    · obtain ⟨d, more, whole, images⟩ := lowercaseAfter_cons before x s
      have rest : ∃ stem', lowercaseAfter (x :: before) s = stem' ++ word := by
        rw [whole, List.cons_append] at ends
        have behind := (List.cons.inj ends).2
        rcases images with ⟨rfl, -⟩ | ⟨-, rfl, -⟩
        · exact ⟨stem, behind⟩
        · -- The accent is no character of the word, so it stands before it.
          rcases stem with _ | ⟨accent, stem⟩
          · rw [List.nil_append] at behind
            have accent := basic '\u0307' (by rw [← behind]; exact List.mem_cons_self ..)
            exact absurd accent (by decide)
          · exact ⟨stem, (List.cons.inj behind).2⟩
      obtain ⟨stem', rest⟩ := rest
      obtain ⟨a, b, split, same, -⟩ := ih rest
      refine ⟨x :: a, b, by rw [split, List.cons_append], same, fun none => ?_⟩
      exact absurd none (List.cons_ne_nil x a)

theorem exists_lowercaseAfter_append (before a b : List Char) :
    ∃ stem, lowercaseAfter before (a ++ b) = stem ++ lowercaseAfter (a.reverse ++ before) b ∧
      (stem = [] → a = []) := by
  induction a generalizing before with
  | nil => exact ⟨[], rfl, fun _ => rfl⟩
  | cons x a ih =>
    obtain ⟨stem, rest, -⟩ := ih (x :: before)
    obtain ⟨d, more, whole, -⟩ := lowercaseAfter_cons before x (a ++ b)
    refine ⟨d :: (more ++ stem), ?_, fun none => absurd none (List.cons_ne_nil _ _)⟩
    rw [List.cons_append, whole, rest]
    simp

/-- A text ends in a word in lowercase if it does up to ASCII case, with text before it in either
case. -/
theorem exists_lowercase_eq_append_iff (basic : ∀ c ∈ word, IsBasic c) (some : word ≠ []) :
    (∃ stem, stem ≠ [] ∧ lowercase s = stem ++ word) ↔
      ∃ a b, a ≠ [] ∧ s = a ++ b ∧ b.map Char.toLower = word := by
  constructor
  · rintro ⟨stem, named, ends⟩
    obtain ⟨a, b, split, same, none⟩ := exists_split_of_lowercaseAfter basic some ends
    exact ⟨a, b, fun empty => named (none empty), split, same⟩
  · rintro ⟨a, b, named, rfl, same⟩
    obtain ⟨stem, whole, none⟩ := exists_lowercaseAfter_append [] a b
    rw [(lowercaseAfter_eq_iff basic).2 same] at whole
    exact ⟨stem, fun empty => named (none empty), whole⟩

theorem lowercaseAfter_of_ascii (ascii : ∀ c ∈ s, c.toNat < 128) :
    lowercaseAfter before s = s.map Char.toLower := by
  induction s generalizing before with
  | nil => rfl
  | cons x s ih =>
    rw [List.forall_mem_cons] at ascii
    have noSigma : x ≠ 'Σ' := by
      rintro rfl
      exact absurd ascii.1 (by decide)
    have noDot : x ≠ 'İ' := by
      rintro rfl
      exact absurd ascii.1 (by decide)
    rw [lowercaseAfter, if_neg noSigma, if_neg noDot, lowercaseChar, if_pos ascii.1, ih ascii.2]
    rfl

/-- A text without letters is its own lowercase form, and that of no other. -/
theorem lowercase_eq_iff_of_noLetter (noLetter : ∀ c ∈ word, c.toNat < 65) :
    lowercase s = word ↔ s = word := by
  have basic : ∀ c ∈ word, IsBasic c := by
    intro c mem
    have low := noLetter c mem
    refine ⟨by omega, ?_⟩
    rintro rfl
    exact absurd low (by decide)
  rw [lowercase, lowercaseAfter_eq_iff basic]
  constructor
  · rintro rfl
    refine (List.map_congr_left fun c mem => ?_).symm.trans (List.map_id s) |>.symm
    exact eq_of_toLower_eq (noLetter _ (List.mem_map_of_mem mem)) rfl
  · rintro rfl
    exact (List.map_congr_left fun c mem => toLower_of_lt (noLetter c mem)).trans (List.map_id s)

/-! ## Cutting at slashes -/

theorem dropWhile_slash_lowercase (s : List Char) :
    (lowercase s).dropWhile (· == '/') = lowercase (s.dropWhile (· == '/')) := by
  induction s with
  | nil => rfl
  | cons x s ih =>
    by_cases slash : x = '/'
    · subst slash
      have first : lowercase ('/' :: s) = '/' :: lowercase s := lowercase_append_slash [] s
      rw [first, List.dropWhile_cons_of_pos (by rfl), List.dropWhile_cons_of_pos (by rfl), ih]
    · obtain ⟨d, more, whole, images⟩ := lowercaseAfter_cons [] x s
      have noSlash : d ≠ '/' := by
        rcases images with ⟨-, one⟩ | ⟨rfl, -⟩
        · exact fun same => slash (eq_of_toLower_eq (by decide) ((one '/' (by decide)).1 same))
        · decide
      rw [List.dropWhile_cons_of_neg (by simpa using slash), lowercase, whole,
        List.dropWhile_cons_of_neg (by simpa using noSlash)]

theorem cutLast?_of_notMem (absent : c ∉ s) : cutLast? c s = none := by
  rw [cutLast?, cut?_of_not_mem (by simpa using absent), Option.map_none]

theorem notMem_of_cutLast? (cut : cutLast? c s = none) : c ∉ s := by
  have flipped := not_mem_of_cut?_none (Option.map_eq_none_iff.1 cut)
  simpa using flipped

theorem cutLast?_lowercase (s : List Char) :
    cutLast? '/' (lowercase s) = (cutLast? '/' s).map (Prod.map lowercase lowercase) := by
  rcases cut : cutLast? '/' s with _ | ⟨folders, leaf⟩
  · exact cutLast?_of_notMem (notMem_lowercase (notMem_of_cutLast? cut))
  · obtain ⟨rfl, last⟩ := cutLast?_eq_some cut
    rw [lowercase_append_slash, cutLast?_append (notMem_lowercase last)]
    rfl

end Text

/-! ## File names in lowercase -/

namespace Path

/-- A component with its name in lowercase. -/
def Component.lowered : Component → Component
  | .name n => .name (String.ofList (lowercase n.toList))
  | c => c

theorem component?_lowercase (piece : List Char) :
    component? (lowercase piece) = (component? piece).map Component.lowered := by
  have here : lowercase piece = ['.'] ↔ piece = ['.'] :=
    lowercase_eq_iff_of_noLetter (List.all_iff_forall_prop.1 (by decide))
  have up : lowercase piece = ['.', '.'] ↔ piece = ['.', '.'] :=
    lowercase_eq_iff_of_noLetter (List.all_iff_forall_prop.1 (by decide))
  rw [component?, component?]
  simp only [lowercase_eq_nil_iff, here, up]
  split
  · rfl
  · split
    · rfl
    · rw [Option.map_some, Component.lowered, String.toList_ofList]

/-- The file name is the last piece between slashes that counts. -/
theorem fileName?_eq (path : String) :
    fileName? path =
      ((splitOn '/' path.toList).filterMap component?).getLast?.bind Component.name? := by
  rw [fileName?, components, List.getLast?_append]
  rcases ((splitOn '/' path.toList).filterMap component?).getLast? with _ | last
  · rw [Option.none_or]
    split <;> rfl
  · rfl

theorem map_lowercase_fileName? (path : String) :
    (fileName? path).map (fun name => String.ofList (lowercase name.toList)) =
      ((splitOn '/' (lowercase path.toList)).filterMap component?).getLast?.bind
        Component.name? := by
  have pieces : ((splitOn '/' path.toList).map lowercase).filterMap component? =
      ((splitOn '/' path.toList).filterMap component?).map Component.lowered := by
    rw [List.filterMap_map, List.map_filterMap]
    exact congrArg (List.filterMap · _) (funext component?_lowercase)
  rw [fileName?_eq, splitOn_lowercase, pieces, List.getLast?_map]
  rcases ((splitOn '/' path.toList).filterMap component?).getLast? with _ | last
  · rfl
  · cases last <;> rfl

/-! ## Extensions in lowercase -/

/-- An extension in small ASCII letters other than `k`. -/
structure IsWord (word : String) : Prop where
  nonempty : word.toList ≠ []
  small : ∀ c ∈ word.toList, IsBasic c ∧ c.toLower = c ∧ c ≠ '.'

variable {path word : String}

theorem IsWord.map_toLower (isWord : IsWord word) :
    word.toList.map Char.toLower = word.toList :=
  (List.map_congr_left fun c mem => (isWord.small c mem).2.1).trans (List.map_id _)

theorem IsWord.noDot (isWord : IsWord word) : '.' ∉ word.toList :=
  fun mem => (isWord.small '.' mem).2.2 rfl

/-- A name that ends in such an extension up to ASCII case is cut before it. -/
theorem IsWord.cutExtension (isWord : IsWord word) {stem extension : List Char}
    (some : stem ≠ []) (lower : extension.map Char.toLower = word.toList) :
    (Path.cutExtension (stem ++ '.' :: extension)).2 = .some extension := by
  have dotStays : ('.' : Char).toLower = '.' := toLower_of_lt (by decide)
  have noDot : '.' ∉ extension := by
    intro mem
    have inWord := List.mem_map_of_mem (f := Char.toLower) mem
    rw [lower, dotStays] at inWord
    exact isWord.noDot inWord
  have noUp : stem ++ '.' :: extension ≠ ['.', '.'] := by
    intro up
    have lengths := congrArg List.length up
    have before := List.length_pos_iff.2 some
    have behind := List.length_pos_iff.2 isWord.nonempty
    rw [← lower] at behind
    simp only [List.length_append, List.length_cons, List.length_nil, List.length_map]
      at lengths behind
    omega
  exact cutExtension_eq_some_iff.2 ⟨stem, some, rfl, noDot, noUp⟩

/-- A path has such an extension if its file name ends in it up to ASCII case. -/
theorem hasExtension_iff_append (isWord : IsWord word) :
    hasExtension path word = true ↔
      ∃ name ∈ fileName? path, ∃ stem dotted, stem ≠ [] ∧ name.toList = stem ++ dotted ∧
        dotted.map Char.toLower = '.' :: word.toList := by
  have dotStays : ('.' : Char).toLower = '.' := toLower_of_lt (by decide)
  rw [hasExtension_iff_exists]
  constructor
  · rintro ⟨e, extended, same⟩
    obtain ⟨name, named, found⟩ := Option.bind_eq_some_iff.1 extended
    obtain ⟨extension, cut, isLast⟩ := Option.bind_eq_some_iff.1 found
    cases isLast
    obtain ⟨stem, some, whole, -, -⟩ := cutExtension_eq_some_iff.1 cut
    rw [eqIgnoringAsciiCase_iff, String.toList_ofList, isWord.map_toLower] at same
    exact ⟨name, named, stem, '.' :: extension, some, whole, by rw [List.map_cons, dotStays, same]⟩
  · rintro ⟨name, named, stem, dotted, some, whole, same⟩
    obtain ⟨dot, extension, rfl, isDot, lower⟩ := List.map_eq_cons_iff.1 same
    obtain rfl : dot = '.' := eq_of_toLower_eq (by decide) isDot
    have cut := isWord.cutExtension some lower
    rw [← whole] at cut
    refine ⟨String.ofList extension, ?_, ?_⟩
    · rw [extension?, Option.mem_def.1 named]
      simp [cut]
    · rw [eqIgnoringAsciiCase_iff, String.toList_ofList, lower, isWord.map_toLower]

/-- A path has such an extension if its file name in lowercase ends in it. -/
theorem hasExtension_iff_lowercase (isWord : IsWord word) :
    hasExtension path word = true ↔
      ∃ name ∈ (fileName? path).map (fun name => String.ofList (lowercase name.toList)),
        ∃ stem, stem ≠ [] ∧ name.toList = stem ++ '.' :: word.toList := by
  have basic : ∀ c ∈ '.' :: word.toList, IsBasic c :=
    List.forall_mem_cons.2 ⟨by decide, fun c mem => (isWord.small c mem).1⟩
  rw [hasExtension_iff_append isWord]
  simp only [← exists_lowercase_eq_append_iff basic (List.cons_ne_nil _ _)]
  constructor
  · rintro ⟨name, named, ends⟩
    exact ⟨_, Option.mem_map_of_mem _ named, by rwa [String.toList_ofList]⟩
  · rintro ⟨_, among, ends⟩
    obtain ⟨name, named, rfl⟩ := Option.map_eq_some_iff.1 among
    exact ⟨name, named, by rwa [String.toList_ofList] at ends⟩

theorem isWord_of_mem_imageExtensions (image : word ∈ imageExtensions) : IsWord word := by
  have words : (imageExtensions.all fun word =>
      word.toList ≠ [] && word.toList.all fun c => IsBasic c ∧ c.toLower = c ∧ c ≠ '.') = true := by
    decide +kernel
  obtain ⟨nonempty, small⟩ := Bool.and_eq_true_iff.1 (List.all_eq_true.1 words word image)
  exact ⟨of_decide_eq_true nonempty, List.all_iff_forall_prop.1 small⟩

end Path

/-! ## Addresses -/

namespace Lookup

variable {a b : String} {d : Document}

/-- Whether an address names an image can be told from its lowercase form. -/
theorem isImageAddress_of_alike (alike : lowercase a.toList = lowercase b.toList) :
    isImageAddress a = isImageAddress b := by
  rw [Bool.eq_iff_iff, isImageAddress, isImageAddress, List.any_eq_true, List.any_eq_true]
  refine exists_congr fun word => and_congr_right fun image => ?_
  have isWord := Path.isWord_of_mem_imageExtensions image
  rw [Path.hasExtension_iff_lowercase isWord, Path.hasExtension_iff_lowercase isWord,
    Path.map_lowercase_fileName?, Path.map_lowercase_fileName?, alike]

theorem map_lowercase_parts (address : String) :
    Prod.map (Option.map lowercase) lowercase (parts address) =
      match cutLast? '/' ((lowercase address.toList).dropWhile (· == '/')) with
      | some (folders, leaf) => (some folders, leaf)
      | none => (none, (lowercase address.toList).dropWhile (· == '/')) := by
  rw [dropWhile_slash_lowercase, cutLast?_lowercase, parts]
  rcases cutLast? '/' (address.toList.dropWhile (· == '/')) with _ | ⟨folders, leaf⟩ <;> rfl

/-- Addresses that are the same in lowercase have the same folders and the same last name in
lowercase. -/
theorem parts_of_alike (alike : lowercase a.toList = lowercase b.toList) :
    (parts a).1.map lowercase = (parts b).1.map lowercase ∧
      lowercase (parts a).2 = lowercase (parts b).2 := by
  have same : Prod.map (Option.map lowercase) lowercase (parts a) =
      Prod.map (Option.map lowercase) lowercase (parts b) := by
    rw [map_lowercase_parts, map_lowercase_parts, alike]
  exact Prod.mk.inj same

theorem matchesFolders_of_alike {folders others : List Char}
    (alike : lowercase folders = lowercase others) :
    matchesFolders d folders = matchesFolders d others := by
  rw [matchesFolders, matchesFolders, alike]

/-- The last names of two addresses agree up to the case of ASCII letters. -/
def SameLeaf (a b : String) : Prop := eqIgnoringAsciiCase (parts a).2 (parts b).2 = true

instance (a b : String) : Decidable (SameLeaf a b) := inferInstanceAs (Decidable (_ = true))

theorem SameLeaf.matchesLeaf_eq (same : SameLeaf a b) (d : Document) (image : Bool) :
    matchesLeaf d image (parts a).2 = matchesLeaf d image (parts b).2 := by
  have lower := eqIgnoringAsciiCase_iff.1 same
  simp only [matchesLeaf, eqIgnoringAsciiCase, lower]

/-- One document is called by two addresses only if their last names agree. -/
theorem sameLeaf_of_matchesLeaf {image : Bool} (left : matchesLeaf d image (parts a).2 = true)
    (right : matchesLeaf d image (parts b).2 = true) : SameLeaf a b := by
  rw [SameLeaf, eqIgnoringAsciiCase_iff]
  cases image with
  | true =>
    exact (eqIgnoringAsciiCase_iff.1 left).symm.trans (eqIgnoringAsciiCase_iff.1 right)
  | false =>
    have left := (Bool.and_eq_true_iff.1 left).2
    have right := (Bool.and_eq_true_iff.1 right).2
    exact (eqIgnoringAsciiCase_iff.1 left).symm.trans (eqIgnoringAsciiCase_iff.1 right)

theorem SameLeaf.of_ascii (alike : lowercase a.toList = lowercase b.toList)
    (ascii : ∀ c ∈ (parts a).2 ++ (parts b).2, c.toNat < 128) : SameLeaf a b := by
  obtain ⟨left, right⟩ := List.forall_mem_append.1 ascii
  have same := (parts_of_alike alike).2
  rw [lowercase, lowercase, lowercaseAfter_of_ascii left, lowercaseAfter_of_ascii right] at same
  exact eqIgnoringAsciiCase_iff.2 same

theorem SameLeaf.matchesAddress_eq (same : SameLeaf a b)
    (alike : lowercase a.toList = lowercase b.toList) (image : Bool) (d : Document) :
    matchesAddress a image d = matchesAddress b image d := by
  have folders : (parts a).1.all (matchesFolders d) = (parts b).1.all (matchesFolders d) := by
    have lower := (parts_of_alike alike).1
    rcases left : (parts a).1 with _ | f <;> rcases right : (parts b).1 with _ | g
    · rfl
    · rw [left, right] at lower
      cases lower
    · rw [left, right] at lower
      cases lower
    · rw [left, right] at lower
      exact matchesFolders_of_alike (Option.some.inj lower)
  change (matchesLeaf d image (parts a).2 && (parts a).1.all (matchesFolders d)) =
    (matchesLeaf d image (parts b).2 && (parts b).1.all (matchesFolders d))
  rw [same.matchesLeaf_eq, folders]

/-- Addresses that are the same in Unicode lowercase, the last names also up to ASCII case, find the
same document among all documents. The last names are so where they are ASCII. Where they are not,
the two addresses find the same only if they find nothing, for no document is found by both. -/
theorem found_search_of_alike {a b : String} (alike : lowercase a.toList = lowercase b.toList) :
    (SameLeaf a b → ∀ documents, (search a documents).found = (search b documents).found) ∧
    ((∀ c ∈ (parts a).2 ++ (parts b).2, c.toNat < 128) → SameLeaf a b) ∧
    (¬ SameLeaf a b → ∀ documents d,
      (search a documents).found = some d → (search b documents).found ≠ some d) := by
  have image := isImageAddress_of_alike alike
  refine ⟨fun same documents => ?_, SameLeaf.of_ascii alike,
    fun differ documents d left right => ?_⟩
  · rw [found_search, found_search, image]
    exact congrArg (documents.find? ·) (funext (same.matchesAddress_eq alike _))
  · rw [found_search] at left right
    have byLeft := List.find?_some left
    have byRight := List.find?_some right
    rw [image] at byLeft
    exact differ (sameLeaf_of_matchesLeaf (Bool.and_eq_true_iff.1 byLeft).1
      (Bool.and_eq_true_iff.1 byRight).1)

/-- Notes and images in folders whose names are not ASCII. -/
def umlauts : List Document :=
  [⟨"ÄRA/Old.md"⟩, ⟨"Ära/Über.md"⟩, ⟨"ära/Note.md"⟩, ⟨"ära/Plan.PNG"⟩]

theorem found_search_of_alike_umlauts :
    lowercase "ÄRA/NOTE".toList = lowercase "ära/nOte".toList ∧ SameLeaf "ÄRA/NOTE" "ära/nOte" ∧
      (search "ÄRA/NOTE" umlauts).found = (search "ära/nOte" umlauts).found ∧
      (search "ära/nOte" umlauts).found = some ⟨"ära/Note.md"⟩ ∧
      (search "Ära/ÜBER" umlauts).found = some ⟨"Ära/Über.md"⟩ ∧
      (search "Ära/über" umlauts).found ≠ some ⟨"Ära/Über.md"⟩ := by
  have alike : lowercase "ÄRA/NOTE".toList = lowercase "ära/nOte".toList := by decide +kernel
  obtain ⟨found, ascii, -⟩ := found_search_of_alike alike
  have same := ascii (List.all_iff_forall_prop.1 (by decide +kernel))
  have other : lowercase "Ära/ÜBER".toList = lowercase "Ära/über".toList := by decide +kernel
  obtain ⟨-, -, apart⟩ := found_search_of_alike other
  have capital : (search "Ära/ÜBER" umlauts).found = some ⟨"Ära/Über.md"⟩ := by decide +kernel
  exact ⟨alike, same, found same umlauts, by decide +kernel, capital,
    apart (by decide +kernel) umlauts _ capital⟩

/-- A note whose name begins with an umlaut is found by no address that begins with the small
one. -/
theorem search_misses_umlaut :
    lowercase "Über".toList = lowercase "über".toList ∧
      (search "Über" [⟨"Über.md"⟩]).found = some ⟨"Über.md"⟩ ∧
      (search "über" [⟨"Über.md"⟩]).found = none ∧
      (search "über/n" [⟨"Über/n.md"⟩]).found = some ⟨"Über/n.md"⟩ := by
  decide +kernel

end Lookup

end Longform
