import Longform.Proofs.ImageNames

/-!
# Folders in addresses

The folders before the last slash of an address are looked for at the end of the
path of a document's folder, as text. Case does not count, and a backslash in the
path counts as a slash.

* `matchesFolders_iff`: name by name this means that all folders but the first
  are the last ones on the path, and that the name of the folder before them ends
  in the first, which need not be the whole of it (`LiesAbout`).
* `search_by_folders`: a search finds the first such document that is called as
  the address says. It finds one in just the named folders where none that is
  called so lies in a folder whose name only ends in the first.
* `search_takes_longer_name`: else a document in a folder with a longer name may
  stand before it.
-/

namespace Longform

open Text

namespace Text

variable {c : Char} {s t a b first part : List Char} {others outer : List (List Char)}

/-! ## Ends of texts -/

theorem isSome_before?_iff : (before? t s).isSome = true ↔ t <:+ s := by
  rw [before?, Option.isSome_map, ← List.reverse_prefix, isSome_after?_iff]

/-- The pieces of a text are the last ones of every text that ends in it, but for the first, which
may be the end of a longer piece. -/
theorem splitOn_of_append (pieces : splitOn c b = first :: others) (a : List Char) :
    ∃ outer part, splitOn c (a ++ b) = outer ++ (part ++ first) :: others := by
  induction a with
  | nil => exact ⟨[], [], pieces⟩
  | cons x a ih =>
    obtain ⟨outer, part, whole⟩ := ih
    rw [List.cons_append, splitOn]
    split
    · exact ⟨[] :: outer, part, by rw [whole, List.cons_append]⟩
    · rw [whole]
      cases outer with
      | nil => exact ⟨[], x :: part, rfl⟩
      | cons piece outer => exact ⟨(x :: piece) :: outer, part, rfl⟩

theorem intercalate_append_suffix (c : Char) (outer : List (List Char)) (part first : List Char)
    (others : List (List Char)) :
    List.intercalate [c] (first :: others) <:+
      List.intercalate [c] (outer ++ (part ++ first) :: others) := by
  induction outer with
  | nil =>
    refine ⟨part, ?_⟩
    cases others with
    | nil => simp
    | cons second others => simp [List.intercalate_cons_cons]
  | cons piece outer ih =>
    have more : outer ++ (part ++ first) :: others ≠ [] := by simp
    rw [List.cons_append, List.intercalate_cons_of_ne_nil more]
    exact ih.trans (List.suffix_append ..)

/-- To end in a text is to end in its pieces, the first of which may be the end of a longer one. -/
theorem isSuffix_iff_splitOn (pieces : splitOn c t = first :: others) :
    t <:+ s ↔ ∃ outer part, splitOn c s = outer ++ (part ++ first) :: others := by
  constructor
  · rintro ⟨a, rfl⟩
    exact splitOn_of_append pieces a
  · rintro ⟨outer, part, whole⟩
    have ends := intercalate_append_suffix c outer part first others
    rw [← whole, ← pieces, intercalate_splitOn, intercalate_splitOn] at ends
    exact ends

/-! ## Lowercase and slashes -/

/-- Beyond the first 128 characters only the Kelvin sign becomes one of them in lowercase. -/
theorem lowercaseChar_of_not_ascii {x : Char} (high : 128 ≤ x.toNat) :
    lowercaseChar x = 'k' ∨ 128 ≤ (lowercaseChar x).toNat := by
  rw [lowercaseChar, if_neg (by omega), mapThrough]
  split
  · next n reached =>
    obtain ⟨⟨first, last, stride, image⟩, among, applied⟩ :=
      List.exists_of_findSome?_eq_some reached
    -- Where a run leads, checked once for the whole table.
    have leads : ∀ run ∈ lowercaseRuns, run.2.1 < 128 ∨ run = (0x212A, 0x212A, 1, 0x6B) ∨
        128 ≤ run.2.2.2 ∧ (run.2.2.2 + (run.2.1 - run.1) < 0xD800 ∨
          0xDFFF < run.2.2.2 ∧ run.2.2.2 + (run.2.1 - run.1) < 0x110000) := by decide +kernel
    have lead := leads _ among
    unfold CaseRun.apply? at applied
    dsimp only at applied lead
    split at applied
    · next within =>
      cases applied
      simp only [Bool.and_eq_true, decide_eq_true_eq] at within
      rcases lead with low | kelvin | ⟨above, valid⟩
      · omega
      · obtain ⟨rfl, rfl, rfl, rfl⟩ := kelvin
        have same : x.toNat - 0x212A = 0 := by omega
        rw [same]
        exact .inl rfl
      · have isValid : (image + (x.toNat - first)).isValidChar := by
          unfold Nat.isValidChar
          omega
        have code : (Char.ofNat (image + (x.toNat - first))).toNat = image + (x.toNat - first) :=
          congrArg Char.toNat (dif_pos isValid)
        right
        omega
    · cases applied
  · exact .inr high

/-- No character but the slash becomes one in lowercase. -/
theorem lowercaseChar_ne_slash {x : Char} (h : x ≠ '/') : lowercaseChar x ≠ '/' := by
  intro slash
  rcases Nat.lt_or_ge x.toNat 128 with ascii | high
  · rw [lowercaseChar, if_pos ascii] at slash
    exact h (eq_of_toLower_eq (by decide) slash)
  · have reached := lowercaseChar_of_not_ascii high
    rw [slash] at reached
    exact absurd reached (by decide)
theorem notMem_lowercase (h : '/' ∉ s) : '/' ∉ lowercase s := by
  have general : ∀ before, '/' ∉ lowercaseAfter before s := by
    induction s with
    | nil => exact fun _ => List.not_mem_nil
    | cons x s ih =>
      intro before
      simp only [List.mem_cons, not_or] at h
      obtain ⟨ne, rest⟩ := h
      rw [lowercaseAfter, List.mem_append, not_or]
      refine ⟨?_, ih rest _⟩
      split
      · split <;> decide
      · split
        · decide
        · exact List.not_mem_cons_of_ne_of_not_mem (lowercaseChar_ne_slash (Ne.symm ne)).symm
            List.not_mem_nil
  exact general []

/-- The pieces of a text in lowercase are its pieces, each in lowercase. -/
theorem splitOn_lowercase (s : List Char) :
    splitOn '/' (lowercase s) = (splitOn '/' s).map lowercase := by
  rcases cut : cut? ['/'] s with _ | ⟨a, b⟩
  · have whole := not_mem_of_cut?_none cut
    rw [splitOn_of_not_mem whole, splitOn_of_not_mem (notMem_lowercase whole)]
    rfl
  · have whole : s = a ++ '/' :: b := by simpa using cut?_eq_some cut
    have shorter : a.length < s.length ∧ b.length < s.length := by
      rw [whole]
      simp
      omega
    rw [whole, lowercase_append_slash, splitOn_append, splitOn_append, List.map_append,
      splitOn_lowercase a, splitOn_lowercase b]
termination_by s.length
decreasing_by
  · exact shorter.1
  · exact shorter.2

/-- The pieces of a text that is made of pieces. -/
theorem splitOn_intercalate {pieces : List (List Char)} (some : pieces ≠ [])
    (apart : ∀ piece ∈ pieces, c ∉ piece) : splitOn c (List.intercalate [c] pieces) = pieces := by
  induction pieces with
  | nil => exact absurd rfl some
  | cons piece pieces ih =>
    obtain ⟨first, others⟩ := List.forall_mem_cons.1 apart
    cases pieces with
    | nil => rw [List.intercalate_singleton, splitOn_of_not_mem first]
    | cons second pieces =>
      rw [List.intercalate_cons_cons, List.append_assoc, List.singleton_append, splitOn_append,
        splitOn_of_not_mem first, ih nofun others, List.singleton_append]

theorem notMem_intercalate {pieces : List (List Char)} {sep : Char} (ne : c ≠ sep)
    (absent : ∀ piece ∈ pieces, c ∉ piece) : c ∉ List.intercalate [sep] pieces := by
  induction pieces with
  | nil => exact List.not_mem_nil
  | cons piece pieces ih =>
    obtain ⟨first, others⟩ := List.forall_mem_cons.1 absent
    cases pieces with
    | nil => rwa [List.intercalate_singleton]
    | cons second pieces =>
      rw [List.intercalate_cons_cons]
      simp only [List.mem_append, List.mem_singleton, not_or]
      exact ⟨⟨first, ne⟩, ih others⟩

theorem lowercase_eq_nil_iff : lowercase s = [] ↔ s = [] := by
  constructor
  · intro empty
    cases s with
    | nil => rfl
    | cons c s =>
      rw [lowercase, lowercaseAfter, List.append_eq_nil_iff] at empty
      have image := empty.1
      split at image
      · cases image
      · split at image <;> cases image
  · rintro rfl
    rfl

end Text

/-! ## Paths made of names -/

namespace Path

/-- The name of a file or a folder. -/
structure IsName (name : String) : Prop where
  ne_nil : name.toList ≠ []
  ne_here : name.toList ≠ ['.']
  ne_up : name.toList ≠ ['.', '.']
  noSlash : '/' ∉ name.toList

/-- The path that leads through the named folders. -/
def ofNames (names : List String) : String := String.intercalate "/" names

variable {name : String} {names : List String}

theorem toList_ofNames (names : List String) :
    (ofNames names).toList = List.intercalate ['/'] (names.map String.toList) :=
  String.toList_intercalate

theorem splitOn_ofNames (some : names ≠ []) (proper : ∀ name ∈ names, IsName name) :
    splitOn '/' (ofNames names).toList = names.map String.toList := by
  rw [toList_ofNames]
  refine splitOn_intercalate (fun none => some (List.map_eq_nil_iff.1 none)) ?_
  intro piece mem
  obtain ⟨name, among, rfl⟩ := List.mem_map.1 mem
  exact (proper name among).noSlash

theorem component?_of_isName (h : IsName name) : component? name.toList = some (.name name) := by
  rw [component?, if_neg (not_or.2 ⟨h.ne_nil, h.ne_here⟩), if_neg h.ne_up, String.ofList_toList]

theorem filterMap_component? (proper : ∀ name ∈ names, IsName name) :
    (names.map String.toList).filterMap component? = names.map .name := by
  induction names with
  | nil => rfl
  | cons name names ih =>
    obtain ⟨first, others⟩ := List.forall_mem_cons.1 proper
    rw [List.map_cons, List.filterMap_cons, component?_of_isName first, ih others]
    rfl

/-- A path of names does not begin with a slash. -/
theorem startsIn_slash_ofNames (proper : ∀ name ∈ names, IsName name) :
    startsIn (· == '/') (ofNames names).toList = false := by
  rw [toList_ofNames]
  cases names with
  | nil => rfl
  | cons name names =>
    have first := (List.forall_mem_cons.1 proper).1
    rcases chars : name.toList with _ | ⟨c, cs⟩
    · exact absurd chars first.ne_nil
    · have ne : c ≠ '/' := by
        rintro rfl
        exact first.noSlash (by rw [chars]; exact List.mem_cons_self ..)
      cases names <;> simp [chars, List.intercalate_cons_cons, startsIn, ne]

/-- The components of a path of names are the names. -/
theorem components_ofNames (some : names ≠ []) (proper : ∀ name ∈ names, IsName name) :
    components (ofNames names) = names.map .name := by
  have relative := startsIn_slash_ofNames proper
  rw [components, splitOn_ofNames some proper, filterMap_component? proper]
  split
  · next chars =>
    rw [chars] at relative
    cases relative
  · next here _ =>
    obtain ⟨name, mem, dot⟩ : ∃ name ∈ names, name.toList = ['.'] :=
      List.mem_map.1 (by rw [here]; exact List.mem_cons_self ..)
    exact absurd dot (proper name mem).ne_here
  · rfl

theorem dropIdle_of_isName (proper : ∀ name ∈ names, IsName name) :
    dropIdle false (names.map String.toList) = names.map String.toList := by
  cases names with
  | nil => rfl
  | cons name names =>
    have first := (List.forall_mem_cons.1 proper).1
    rw [List.map_cons, dropIdle, if_neg]
    rintro (empty | ⟨dot, -⟩)
    · exact first.ne_nil empty
    · exact first.ne_here dot

/-- A file lies in the folders that its path leads through. -/
theorem parent?_ofNames {folders : List String} {file : String}
    (proper : ∀ name ∈ folders ++ [file], IsName name) :
    parent? (ofNames (folders ++ [file])) = some (ofNames folders) := by
  obtain ⟨inFolders, last⟩ := List.forall_mem_append.1 proper
  have reversed : ∀ name ∈ file :: folders.reverse, IsName name := by
    intro name mem
    exact proper name (by simpa [or_comm] using mem)
  have pieces : (splitOn '/' (ofNames (folders ++ [file])).toList).reverse =
      (file :: folders.reverse).map String.toList := by
    rw [splitOn_ofNames (by simp) proper]
    simp
  have whole := dropIdle_of_isName reversed
  have above := dropIdle_of_isName (List.forall_mem_cons.1 reversed).2
  rw [List.map_cons] at pieces whole
  simp only [parent?, startsIn_slash_ofNames proper, Bool.false_eq_true, if_false, pieces, whole,
    above, Option.some.injEq]
  rw [← List.map_reverse, List.reverse_reverse, ← toList_ofNames, String.ofList_toList]

end Path

/-! ## Documents in folders -/

namespace Lookup

variable {d : Document} {address : String} {folders leaf : List Char}

/-- The names in the path of a folder, in lowercase. -/
def folderNames (path : List Char) : List (List Char) := (splitOn '/' path).map lowercase

/-- The names of the folders that a document lies in, outermost first, as its path spells them and
in lowercase. A backslash counts as a slash. -/
def foldersOf (d : Document) : Option (List (List Char)) :=
  (Path.parent? d.path).map fun parent =>
    folderNames (parent.toList.map fun c => if c == '\\' then '/' else c)

/-- The last folders that a document lies in are the given ones. -/
def LiesIn (d : Document) (folders : List Char) : Prop :=
  ∃ names ∈ foldersOf d, folderNames folders <:+ names

/-- The last folders that a document lies in are the given ones, but for the name of the first of
them, which may be the end of the name of the folder. -/
def LiesAbout (d : Document) (folders : List Char) : Prop :=
  ∃ names ∈ foldersOf d, ∃ first others, folderNames folders = first :: others ∧
    ∃ outer part, names = outer ++ (part ++ first) :: others

theorem LiesIn.liesAbout (h : LiesIn d folders) : LiesAbout d folders := by
  obtain ⟨names, among, outer, rfl⟩ := h
  rcases pieces : folderNames folders with _ | ⟨first, others⟩
  · exact absurd (List.map_eq_nil_iff.1 pieces) (splitOn_ne_nil '/' folders)
  · rw [pieces] at among
    exact ⟨_, among, first, others, pieces, outer, [], rfl⟩

/-- Folders are matched name by name, the first of them by the end of the name. -/
theorem matchesFolders_iff : matchesFolders d folders = true ↔ LiesAbout d folders := by
  rw [matchesFolders, Option.any_eq_true]
  constructor
  · rintro ⟨parent, lies, ends⟩
    rw [isSome_before?_iff] at ends
    rcases pieces : splitOn '/' (lowercase folders) with _ | ⟨first, others⟩
    · exact absurd pieces (splitOn_ne_nil '/' _)
    · rw [isSuffix_iff_splitOn pieces, splitOn_lowercase] at ends
      rw [splitOn_lowercase] at pieces
      exact ⟨_, Option.mem_map_of_mem _ lies, first, others, pieces, ends⟩
  · rintro ⟨names, among, first, others, pieces, ends⟩
    obtain ⟨parent, lies, rfl⟩ := Option.map_eq_some_iff.1 among
    refine ⟨parent, lies, ?_⟩
    rw [folderNames, ← splitOn_lowercase] at pieces ends
    exact isSome_before?_iff.2 ((isSuffix_iff_splitOn pieces).2 ends)

instance (d : Document) (folders : List Char) : Decidable (LiesAbout d folders) :=
  decidable_of_iff _ matchesFolders_iff

instance (d : Document) (folders : List Char) : Decidable (LiesIn d folders) :=
  decidable_of_iff ((foldersOf d).any fun names => (folderNames folders).isSuffixOf names) <| by
    simp only [Option.any_eq_true, List.isSuffixOf_iff_suffix, LiesIn, Option.mem_def]

theorem folderNames_ofNames {names : List String} (some : names ≠ [])
    (proper : ∀ name ∈ names, Path.IsName name) :
    folderNames (Path.ofNames names).toList = names.map fun name => lowercase name.toList := by
  rw [folderNames, Path.splitOn_ofNames some proper, List.map_map]
  rfl

theorem not_folderNames_suffix_top (named : folders ≠ []) : ¬ folderNames folders <:+ [[]] := by
  intro ends
  have pieces : folderNames folders = [[]] := by
    have short := ends.length_le
    rcases whole : folderNames folders with _ | ⟨first, others⟩
    · exact absurd (List.map_eq_nil_iff.1 whole) (splitOn_ne_nil '/' folders)
    · rw [whole] at ends short
      obtain rfl : others = [] := by
        rw [← List.length_eq_zero_iff]
        simpa using short
      exact ends.eq_of_length rfl
  obtain ⟨piece, single, empty⟩ := List.map_eq_singleton_iff.1 pieces
  have text := intercalate_splitOn '/' folders
  rw [single, lowercase_eq_nil_iff.1 empty] at text
  exact named text.symm

/-- Where a path is made of names, a document lies in the given folders if these are the last names
before its own, up to case. -/
theorem liesIn_ofNames_iff {inside : List String} {file : String}
    (proper : ∀ name ∈ inside ++ [file], Path.IsName name)
    (plain : ∀ name ∈ inside, '\\' ∉ name.toList) (named : folders ≠ []) :
    LiesIn ⟨Path.ofNames (inside ++ [file])⟩ folders ↔
      folderNames folders <:+ inside.map fun name => lowercase name.toList := by
  have unchanged : (Path.ofNames inside).toList.map (fun c => if c == '\\' then '/' else c) =
      (Path.ofNames inside).toList := by
    have absent : '\\' ∉ (Path.ofNames inside).toList := by
      rw [Path.toList_ofNames]
      refine notMem_intercalate (by decide) fun piece mem => ?_
      obtain ⟨name, among, rfl⟩ := List.mem_map.1 mem
      exact plain name among
    refine List.map_congr_left (fun c mem => if_neg ?_) |>.trans (List.map_id _)
    exact fun same => absent (by rwa [← beq_iff_eq.1 same])
  have there : foldersOf ⟨Path.ofNames (inside ++ [file])⟩ =
      some (folderNames (Path.ofNames inside).toList) := by
    rw [foldersOf, Path.parent?_ofNames proper, Option.map_some, unchanged]
  have lies : LiesIn ⟨Path.ofNames (inside ++ [file])⟩ folders ↔
      folderNames folders <:+ folderNames (Path.ofNames inside).toList := by
    rw [LiesIn, there]
    constructor
    · rintro ⟨_, ⟨⟩, ends⟩
      exact ends
    · intro ends
      exact ⟨_, rfl, ends⟩
  rw [lies]
  rcases none : inside with _ | ⟨outermost, more⟩
  · -- A document that lies in no folder has a path without folders, the empty text.
    have empty : folderNames folders ≠ [] :=
      fun nil => splitOn_ne_nil '/' folders (List.map_eq_nil_iff.1 nil)
    refine iff_of_false (not_folderNames_suffix_top named) ?_
    exact fun ends => empty (List.suffix_nil.1 ends)
  · rw [← none, folderNames_ofNames (by rw [none]; exact nofun)
      (List.forall_mem_append.1 proper).1]

/-! ## Searches -/

/-- The document is called as the address says, in whatever folder it lies. -/
def Called (address : String) (d : Document) : Prop :=
  matchesLeaf d (isImageAddress address) (parts address).2 = true

instance (address : String) (d : Document) : Decidable (Called address d) :=
  inferInstanceAs (Decidable (_ = true))

theorem matchesAddress_iff (parted : (parts address).1 = some folders) :
    matchesAddress address (isImageAddress address) d = true ↔
      Called address d ∧ LiesAbout d folders := by
  change (matchesLeaf d _ (parts address).2 && (parts address).1.all (matchesFolders d)) = true ↔ _
  rw [Called, ← matchesFolders_iff, parted, Option.all_some, Bool.and_eq_true]

theorem found_search (address : String) (documents : List Document) :
    (search address documents).found =
      documents.find? (matchesAddress address (isImageAddress address)) := by
  rw [search, ← List.head?_filter]
  rcases documents.filter (matchesAddress address (isImageAddress address)) with _ | ⟨d, others⟩
  · rfl
  · rfl

/-- A search finds the first document that is called as the address says and lies about its
folders. -/
theorem found_search_eq_some_iff (parted : (parts address).1 = some folders)
    (documents : List Document) :
    (search address documents).found = some d ↔
      (Called address d ∧ LiesAbout d folders) ∧ ∃ earlier later,
        documents = earlier ++ d :: later ∧
          ∀ e ∈ earlier, ¬ (Called address e ∧ LiesAbout e folders) := by
  rw [found_search, List.find?_eq_some_iff_append, matchesAddress_iff parted]
  simp only [Bool.not_eq_true', ← Bool.not_eq_true, matchesAddress_iff parted]

theorem exists_found_search (parted : (parts address).1 = some folders)
    {documents : List Document} (mem : d ∈ documents) (called : Called address d)
    (lies : LiesAbout d folders) : ∃ e, (search address documents).found = some e := by
  rw [found_search, ← Option.isSome_iff_exists, List.find?_isSome]
  exact ⟨d, mem, (matchesAddress_iff parted).2 ⟨called, lies⟩⟩

/-- Before its last slash an address has some text. -/
theorem folders_ne_nil (parted : (parts address).1 = some folders) : folders ≠ [] := by
  rintro rfl
  rw [parts] at parted
  split at parted
  · next before leaf cut =>
    obtain rfl : before = [] := Option.some.inj parted
    obtain ⟨whole, -⟩ := cutLast?_eq_some cut
    have kept := List.head?_dropWhile_not (· == '/') address.toList
    rw [whole] at kept
    exact absurd (show ('/' == '/') = false from kept) (by decide)
  · cases parted

/-- A search by an address with folders finds the first document that is called as the address says
and whose folders end in those of the address, the first of which may be the end of a longer name.
So a document that lies in the folders is missed only where one is found that stands before it.
Where no document that is called so lies in a folder with such a longer name, every document that is
found lies in the folders, and none that does is hidden by one that does not. To lie in the folders
is to have them, up to case, as the last components of the path before the file name, where the path
is made of names without backslashes. -/
theorem search_by_folders {address : String} {folders : List Char}
    (parted : (parts address).1 = some folders) (documents : List Document) :
    (∀ d, (search address documents).found = some d ↔
      (Called address d ∧ LiesAbout d folders) ∧ ∃ earlier later,
        documents = earlier ++ d :: later ∧
          ∀ e ∈ earlier, ¬ (Called address e ∧ LiesAbout e folders)) ∧
    (∀ d, LiesIn d folders → LiesAbout d folders) ∧
    ((∀ d ∈ documents, Called address d → LiesAbout d folders → LiesIn d folders) →
      (∀ d, (search address documents).found = some d → LiesIn d folders) ∧
      ∀ d ∈ documents, Called address d → LiesIn d folders →
        ∃ e, (search address documents).found = some e ∧ LiesIn e folders) ∧
    ∀ inside file, (∀ name ∈ inside ++ [file], Path.IsName name) →
      (∀ name ∈ inside, '\\' ∉ name.toList) →
      Path.components (Path.ofNames (inside ++ [file])) = (inside ++ [file]).map .name ∧
      (LiesIn ⟨Path.ofNames (inside ++ [file])⟩ folders ↔
        folderNames folders <:+ inside.map fun name => lowercase name.toList) := by
  have finds := fun d => found_search_eq_some_iff (d := d) parted documents
  refine ⟨finds, fun d lies => lies.liesAbout, fun whole => ?_, fun inside file proper plain => ?_⟩
  · have liesIn : ∀ d, (search address documents).found = some d → LiesIn d folders := by
      intro d found
      obtain ⟨⟨called, about⟩, earlier, later, split, -⟩ := (finds d).1 found
      exact whole d (by rw [split]; simp) called about
    refine ⟨liesIn, fun d mem called lies => ?_⟩
    obtain ⟨e, found⟩ := exists_found_search parted mem called lies.liesAbout
    exact ⟨e, found, liesIn e found⟩
  · exact ⟨Path.components_ofNames (by simp) proper,
      liesIn_ofNames_iff proper plain (folders_ne_nil parted)⟩

/-- Notes of one name in several folders. -/
def dispersed : List Document :=
  [⟨"A/c/Dup.md"⟩, ⟨"A/B/Dup.md"⟩, ⟨"B/Dup.md"⟩, ⟨"x/a/b/Dup.md"⟩]

theorem search_by_folders_dispersed :
    (parts "/a/B/dup").1 = some "a/B".toList ∧
    (∀ d ∈ dispersed, Called "/a/B/dup" d → LiesAbout d "a/B".toList → LiesIn d "a/B".toList) ∧
    (search "/a/B/dup" dispersed).found = some ⟨"A/B/Dup.md"⟩ ∧
    LiesIn ⟨"A/B/Dup.md"⟩ "a/B".toList := by
  have parted : (parts "/a/B/dup").1 = some "a/B".toList := by decide +kernel
  have whole : ∀ d ∈ dispersed, Called "/a/B/dup" d → LiesAbout d "a/B".toList →
      LiesIn d "a/B".toList := by decide +kernel
  obtain ⟨finds, -, apart, -⟩ := search_by_folders parted dispersed
  have found : (search "/a/B/dup" dispersed).found = some ⟨"A/B/Dup.md"⟩ := by
    refine (finds _).2 ⟨by decide +kernel, [⟨"A/c/Dup.md"⟩], _, rfl, ?_⟩
    decide +kernel
  exact ⟨parted, whole, found, (apart whole).1 _ found⟩

/-- A folder whose name ends in the one that is asked for comes before the folder of that name, and
its note is found. -/
theorem search_takes_longer_name :
    (¬ ∀ (address : String) (folders : List Char) (documents : List Document),
      (parts address).1 = some folders →
        (∀ d, (search address documents).found = some d → LiesIn d folders) ∧
        ∀ d ∈ documents, Called address d → LiesIn d folders →
          ∃ e, (search address documents).found = some e ∧ LiesIn e folders) ∧
    (search "b/Dup" [⟨"ab/Dup.md"⟩, ⟨"b/Dup.md"⟩]).found = some ⟨"ab/Dup.md"⟩ ∧
    ¬ LiesIn ⟨"ab/Dup.md"⟩ "b".toList ∧
    Called "b/Dup" ⟨"b/Dup.md"⟩ ∧ LiesIn ⟨"b/Dup.md"⟩ "b".toList := by
  have found : (search "b/Dup" [⟨"ab/Dup.md"⟩, ⟨"b/Dup.md"⟩]).found = some ⟨"ab/Dup.md"⟩ := by
    decide +kernel
  have outside : ¬ LiesIn ⟨"ab/Dup.md"⟩ "b".toList := by decide +kernel
  refine ⟨fun onlyInFolders => ?_, found, outside, by decide +kernel, by decide +kernel⟩
  exact outside ((onlyInFolders "b/Dup" _ _ (by decide +kernel)).1 _ found)

end Lookup

end Longform
