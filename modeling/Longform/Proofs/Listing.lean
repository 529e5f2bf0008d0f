import Longform.Proofs.DiskFiles
import Longform.Store.Vault

/-!
# Listing folders

A disk is a tree: each place holds one item, and what lies somewhere lies in a
folder (`Disk.IsTree`). The operations of a disk keep it one. On a tree the walk
through a folder is told by the files below it.

* `mem_filesIn`: it lists the files that lie there under names that are not hidden.
* `pairwise_filesIn`: it lists them in the order of their names, first names first,
  and each of them once.
* `filesIn_congr`: two trees with the same files are listed alike, whatever empty
  folders they have.
* `Vault.write_cases`: what a vault does to its disk when it writes a document.
-/

namespace Longform.Disk

open Text

variable {d d' : Disk} {place target folder names start : List String} {name path : String}
  {item : Item} {content : Content} {pieces : List (List Char)}

theorem file?_eq_some_iff :
    d.file? place = some content ↔ d.item? place = some (.file content) := by
  rw [file?]
  rcases d.item? place with _ | _ | _ <;> simp

/-! ## Trees -/

/-- The places are in order, each holds one item, and what lies somewhere lies in a folder. -/
structure IsTree (d : Disk) : Prop where
  ordered : d.items.Pairwise fun x y => x.1 < y.1
  inFolder : ∀ {place name}, d.item? (place ++ [name]) ≠ none → d.item? place = some .folder

/-- A place is in a folder, or it is the root. -/
def Placed (d : Disk) (place : List String) : Prop :=
  ∀ up name, place = up ++ [name] → d.item? up = some .folder

theorem lookup_of_mem {items : List (List String × Item)}
    (ordered : items.Pairwise fun x y => x.1 < y.1) (mem : (place, item) ∈ items) :
    items.lookup place = some item := by
  induction items with
  | nil => cases mem
  | cons other items ih =>
    rw [List.pairwise_cons] at ordered
    rcases List.mem_cons.1 mem with rfl | later
    · exact List.lookup_cons_self
    · have apart : (place == other.1) = false := by
        rw [beq_eq_false_iff_ne]
        intro same
        have before := ordered.1 _ later
        rw [same] at before
        exact List.lt_irrefl _ before
      rw [List.lookup_cons, apart]
      exact ih ordered.2 later

namespace IsTree

theorem mem_items_iff (tree : d.IsTree) (below : place ≠ []) :
    (place, item) ∈ d.items ↔ d.item? place = some item := by
  rw [item?, if_neg below]
  refine ⟨lookup_of_mem tree.ordered, fun found => ?_⟩
  obtain ⟨before, after, whole, -⟩ := List.lookup_eq_some_iff.1 found
  rw [whole]
  exact List.mem_append_right _ (List.mem_cons_self ..)

/-- The way to something leads through folders. -/
theorem folder_above (tree : d.IsTree) (below : names ≠ [])
    (something : d.item? (place ++ names) ≠ none) : d.item? place = some .folder := by
  induction names generalizing place with
  | nil => exact absurd rfl below
  | cons name names ih =>
    rw [List.append_cons] at something
    rcases names with _ | ⟨next, names⟩
    · rw [List.append_nil] at something
      exact tree.inFolder something
    · have folder := ih nofun something
      exact tree.inFolder (by rw [folder]; exact nofun)

theorem placed (tree : d.IsTree) (something : d.item? place ≠ none) : d.Placed place := by
  rintro up name rfl
  exact tree.inFolder something

/-- A path leads to a place in a folder, whether or not there is something. -/
theorem placed_of_walk (tree : d.IsTree) (at_start : d.Placed start)
    (led : d.walk start pieces = .ok place) : d.Placed place := by
  induction pieces generalizing start with
  | nil =>
    cases led
    exact at_start
  | cons piece pieces ih =>
    rw [walk] at led
    split at led
    · cases led
    · cases led
    · next folder =>
      split at led
      · exact ih at_start led
      · split at led
        · -- One step up from a folder is again a folder, or the root.
          refine ih ?_ led
          rcases List.eq_nil_or_concat start with rfl | ⟨above, last, rfl⟩
          · exact at_start
          · rw [List.concat_eq_append, List.dropLast_concat]
            have up := at_start above last (List.concat_eq_append ..)
            exact tree.placed (by rw [up]; exact Option.some_ne_none _)
        · simp only at led
          split at led
          · cases led
          · refine ih ?_ led
            intro up name same
            obtain ⟨rfl, -⟩ := List.append_inj' same rfl
            exact folder

theorem placed_of_locate (tree : d.IsTree) (led : d.locate path = .ok place) : d.Placed place := by
  rw [locate] at led
  split at led
  · cases led
  · split at led
    · cases led
    · rcases cut : splitOn '/' path.toList with _ | ⟨piece, pieces⟩
      · exact absurd cut (splitOn_ne_nil '/' _)
      · rw [cut] at led
        refine tree.placed_of_walk (tree.placed ?_) led
        -- The first name is only followed from a folder.
        intro nothing
        rw [walk, nothing] at led
        cases led

end IsTree

/-! ### Operations on trees -/

/-- A disk with nothing on it. -/
theorem isTree_nil (here : List String) : IsTree ⟨[], here⟩ := by
  refine ⟨.nil, fun {place name} something => absurd ?_ something⟩
  rw [item?, if_neg (by simp)]
  rfl

theorem mem_putItem {items : List (List String × Item)} {x : List String × Item}
    (mem : x ∈ putItem place item items) : x = (place, item) ∨ x ∈ items := by
  fun_induction putItem place item items with
  | case1 => exact .inl (List.mem_singleton.1 mem)
  | case2 old more =>
    exact (List.mem_cons.1 mem).imp_right (List.mem_cons_of_mem _)
  | case3 => exact List.mem_cons.1 mem
  | case4 n i more _ _ ih =>
    rcases List.mem_cons.1 mem with rfl | later
    · exact .inr (List.mem_cons_self ..)
    · exact (ih later).imp_right (List.mem_cons_of_mem _)

theorem pairwise_putItem {items : List (List String × Item)}
    (ordered : items.Pairwise fun x y => x.1 < y.1) :
    (putItem place item items).Pairwise fun x y => x.1 < y.1 := by
  fun_induction putItem place item items with
  | case1 => exact List.pairwise_singleton ..
  | case2 => exact List.pairwise_cons.2 (List.pairwise_cons.1 ordered)
  | case3 n i more _ before =>
    refine List.pairwise_cons.2 ⟨?_, ordered⟩
    intro x mem
    rcases List.mem_cons.1 mem with rfl | later
    · exact before
    · exact List.lt_trans before ((List.pairwise_cons.1 ordered).1 x later)
  | case4 n i more ne notBefore ih =>
    obtain ⟨first, others⟩ := List.pairwise_cons.1 ordered
    refine List.pairwise_cons.2 ⟨?_, ih others⟩
    intro x mem
    rcases mem_putItem mem with rfl | later
    · exact ((Std.lt_trichotomy place n).resolve_left notBefore).resolve_left ne
    · exact first x later

/-- Something is put into a folder, and nothing but a folder takes the place of a folder. -/
theorem IsTree.put (tree : d.IsTree) (below : place ≠ []) (inside : d.Placed place)
    (stays : d.item? place = some .folder → item = .folder) : (d.put place item).IsTree := by
  refine ⟨pairwise_putItem tree.ordered, ?_⟩
  intro up name something
  have above : d.item? up = some .folder := by
    by_cases here : up ++ [name] = place
    · exact inside up name here.symm
    · rw [item?_put_of_ne here] at something
      exact tree.inFolder something
  by_cases here : up = place
  · subst here
    rw [item?_put below, stays above]
  · rw [item?_put_of_ne here, above]

/-- One disk is another with more folders. -/
structure Grows (d d' : Disk) : Prop where
  tree : d.IsTree → d'.IsTree
  files : d'.file? = d.file?
  folders : ∀ {place}, d.item? place = some .folder → d'.item? place = some .folder
  led : ∀ {path place}, d.locate path = .ok place → d'.locate path = .ok place

theorem Grows.refl (d : Disk) : d.Grows d := ⟨id, rfl, id, id⟩

theorem Grows.trans {d'' : Disk} (first : d.Grows d') (second : d'.Grows d'') : d.Grows d'' :=
  ⟨second.tree ∘ first.tree, second.files.trans first.files,
    fun folder => second.folders (first.folders folder), fun led => second.led (first.led led)⟩

theorem grows_makeFolder (made : d.makeFolder path = .ok d') : d.Grows d' := by
  have files := file?_makeFolder made
  obtain ⟨place, led, vacant, rfl⟩ := makeFolder_eq_ok made
  have free : d.item? place ≠ some .folder := by
    rw [vacant]
    exact nofun
  refine ⟨fun tree => ?_, files, fun folder => ?_, locate_put free⟩
  · exact tree.put (ne_nil_of_item? free) (tree.placed_of_locate led) fun _ => rfl
  · rw [item?_put_of_ne, folder]
    rintro rfl
    exact free folder

/-- Creating folders makes a tree grow, also where it fails half way. -/
theorem grows_makeFolders (d : Disk) (path : String) : d.Grows (d.makeFolders path).2 :=
  makeFirst_induction Grows.refl Grows.trans grows_makeFolder d _

theorem IsTree.write (tree : d.IsTree) (path : String) (content : Content) :
    (d.write path content).2.IsTree := by
  rcases d.write_cases path content with ⟨fault, same⟩ | ⟨place, led, free, done⟩
  · rwa [same]
  · rw [done]
    exact tree.put (ne_nil_of_item? free) (tree.placed_of_locate led)
      fun folder => absurd folder free

/-- A path leads where it led before a file is written. -/
theorem locate_write (led : d.locate path = .ok place) (file : String) (content : Content) :
    (d.write file content).2.locate path = .ok place := by
  rcases d.write_cases file content with ⟨fault, same⟩ | ⟨target, -, free, done⟩
  · rwa [same]
  · rw [done]
    exact locate_put free led

/-! ## The entries of a folder -/

theorem mem_putEntry {x : String × Item} {listed : List (String × Item)} :
    x ∈ putEntry name item listed ↔ x = (name, item) ∨ x ∈ listed := by
  fun_induction putEntry name item listed with
  | case1 => simp
  | case2 n i more _ ih =>
    rw [List.mem_cons, ih, List.mem_cons, or_left_comm]
  | case3 => exact List.mem_cons

theorem pairwise_putEntry {listed : List (String × Item)}
    (ordered : listed.Pairwise fun x y => x.1 < y.1) (new : name ∉ listed.map Prod.fst) :
    (putEntry name item listed).Pairwise fun x y => x.1 < y.1 := by
  fun_induction putEntry name item listed with
  | case1 => exact List.pairwise_singleton ..
  | case2 n i more before ih =>
    obtain ⟨first, others⟩ := List.pairwise_cons.1 ordered
    rw [List.map_cons, List.mem_cons, not_or] at new
    refine List.pairwise_cons.2 ⟨?_, ih others new.2⟩
    intro x mem
    rcases mem_putEntry.1 mem with rfl | later
    · exact before
    · exact first x later
  | case3 n i more notBefore =>
    rw [List.map_cons, List.mem_cons, not_or] at new
    have before : name < n :=
      ((Std.lt_trichotomy n name).resolve_left notBefore).resolve_left (Ne.symm new.1)
    refine List.pairwise_cons.2 ⟨?_, ordered⟩
    intro x mem
    rcases List.mem_cons.1 mem with rfl | later
    · exact before
    · exact String.lt_trans before ((List.pairwise_cons.1 ordered).1 x later)

theorem mem_foldr_putEntry {x : String × Item} {listed : List (String × Item)} :
    x ∈ listed.foldr (fun (n, i) => putEntry n i) [] ↔ x ∈ listed := by
  induction listed with
  | nil => exact Iff.rfl
  | cons entry listed ih => rw [List.foldr_cons, mem_putEntry, ih, List.mem_cons]

theorem pairwise_foldr_putEntry {listed : List (String × Item)}
    (distinct : listed.Pairwise fun x y => x.1 ≠ y.1) :
    (listed.foldr (fun (n, i) => putEntry n i) []).Pairwise fun x y => x.1 < y.1 := by
  induction listed with
  | nil => exact .nil
  | cons entry listed ih =>
    obtain ⟨first, others⟩ := List.pairwise_cons.1 distinct
    rw [List.foldr_cons]
    refine pairwise_putEntry (ih others) fun mem => ?_
    obtain ⟨x, mem, same⟩ := List.mem_map.1 mem
    exact first x (mem_foldr_putEntry.1 mem) same.symm

/-- What lies right in a folder is listed by its last name. -/
theorem entry_eq_some_iff {x : String × Item} :
    (if place.dropLast = folder then place.getLast?.map (·, item) else none) = some x ↔
      place = folder ++ [x.1] ∧ item = x.2 := by
  constructor
  · intro chosen
    split at chosen
    · next inside =>
      obtain ⟨last, named, rfl⟩ := Option.map_eq_some_iff.1 chosen
      obtain ⟨above, rfl⟩ := List.getLast?_eq_some_iff.1 named
      rw [List.dropLast_concat] at inside
      exact ⟨by rw [inside], rfl⟩
    · cases chosen
  · rintro ⟨rfl, rfl⟩
    simp

theorem mem_entries : (name, item) ∈ d.entries folder ↔ (folder ++ [name], item) ∈ d.items := by
  rw [entries, mem_foldr_putEntry, List.mem_filterMap]
  constructor
  · rintro ⟨⟨place, i⟩, mem, chosen⟩
    obtain ⟨rfl, rfl⟩ := entry_eq_some_iff.1 chosen
    exact mem
  · intro mem
    exact ⟨_, mem, entry_eq_some_iff.2 ⟨rfl, rfl⟩⟩

/-- The entries of a folder are in the order of their names, and each name is there once. -/
theorem pairwise_entries (tree : d.IsTree) (folder : List String) :
    (d.entries folder).Pairwise fun x y => x.1 < y.1 := by
  refine pairwise_foldr_putEntry (List.pairwise_filterMap.2 (tree.ordered.imp ?_))
  rintro ⟨place, i⟩ ⟨place', i'⟩ before x chosen x' chosen' same
  obtain ⟨rfl, -⟩ := entry_eq_some_iff.1 chosen
  obtain ⟨rfl, -⟩ := entry_eq_some_iff.1 chosen'
  rw [same] at before
  exact List.lt_irrefl _ before

/-! ## The walk through a folder -/

theorem length_le_depth (mem : (place, item) ∈ d.items) : place.length ≤ d.depth := by
  rw [depth]
  generalize d.items = items at mem
  induction items with
  | nil => cases mem
  | cons other items ih =>
    rw [List.foldr_cons]
    rcases List.mem_cons.1 mem with rfl | later
    · exact Nat.le_max_left ..
    · exact Nat.le_trans (ih later) (Nat.le_max_right ..)

theorem cons_mem_filesUpTo {depth : Nat} :
    name :: names ∈ d.filesUpTo (depth + 1) folder ↔ isHidden name = false ∧
      (names = [] ∧ (∃ content, (folder ++ [name], .file content) ∈ d.items) ∨
        (folder ++ [name], .folder) ∈ d.items ∧
          names ∈ d.filesUpTo depth (folder ++ [name])) := by
  rw [filesUpTo, List.mem_flatMap]
  constructor
  · rintro ⟨⟨n, i⟩, mem, listed⟩
    dsimp only at listed
    split at listed
    · cases listed
    · next shown =>
      rw [Bool.not_eq_true] at shown
      rcases i with content | _
      · obtain ⟨rfl, rfl⟩ := List.cons.inj (List.mem_singleton.1 listed)
        exact ⟨shown, .inl ⟨rfl, content, mem_entries.1 mem⟩⟩
      · obtain ⟨rest, inside, same⟩ := List.mem_map.1 listed
        obtain ⟨rfl, rfl⟩ := List.cons.inj same
        exact ⟨shown, .inr ⟨mem_entries.1 mem, inside⟩⟩
  · rintro ⟨shown, ⟨rfl, content, mem⟩ | ⟨mem, inside⟩⟩
    · exact ⟨_, mem_entries.2 mem, by simp [shown]⟩
    · exact ⟨_, mem_entries.2 mem, by simpa [shown] using inside⟩

theorem nil_notMem_filesUpTo {depth : Nat} : [] ∉ d.filesUpTo depth folder := by
  cases depth with
  | zero => exact List.not_mem_nil
  | succ depth =>
    rw [filesUpTo, List.mem_flatMap]
    rintro ⟨⟨n, i⟩, -, listed⟩
    dsimp only at listed
    split at listed
    · cases listed
    · rcases i with content | _ <;> simp at listed

/-- A walk that goes deep enough lists the files below a folder that are not hidden. -/
theorem mem_filesUpTo (tree : d.IsTree) {depth : Nat} (enough : d.depth ≤ folder.length + depth) :
    names ∈ d.filesUpTo depth folder ↔
      names ≠ [] ∧ (∀ name ∈ names, isHidden name = false) ∧
        ∃ content, d.file? (folder ++ names) = some content := by
  induction depth generalizing folder names with
  | zero =>
    refine iff_of_false List.not_mem_nil ?_
    rintro ⟨some, -, content, holds⟩
    have mem := (tree.mem_items_iff (by simp [some])).2 (file?_eq_some_iff.1 holds)
    have deep := length_le_depth mem
    have positive := List.length_pos_iff.2 some
    rw [List.length_append] at deep
    omega
  | succ depth ih =>
    rcases names with _ | ⟨name, names⟩
    · exact iff_of_false nil_notMem_filesUpTo fun h => h.1 rfl
    have deeper : d.depth ≤ (folder ++ [name]).length + depth := by
      rw [List.length_append, List.length_singleton]
      omega
    have listed : ∀ {item : Item},
        (folder ++ [name], item) ∈ d.items ↔ d.item? (folder ++ [name]) = some item :=
      tree.mem_items_iff (by simp)
    rw [cons_mem_filesUpTo, ih deeper, List.forall_mem_cons, List.append_cons folder name names]
    simp only [listed]
    constructor
    · rintro ⟨shown, ⟨rfl, content, holds⟩ | ⟨-, -, below, holds⟩⟩
      · exact ⟨nofun, ⟨shown, nofun⟩, content, by rw [List.append_nil, file?_eq_some_iff, holds]⟩
      · exact ⟨nofun, ⟨shown, below⟩, holds⟩
    · rintro ⟨-, ⟨shown, below⟩, content, holds⟩
      refine ⟨shown, ?_⟩
      rcases names with _ | ⟨next, names⟩
      · rw [List.append_nil, file?_eq_some_iff] at holds
        exact .inl ⟨rfl, content, holds⟩
      · -- Something below the name shows that the name is that of a folder.
        have something : d.item? (folder ++ [name] ++ next :: names) ≠ none := by
          rw [file?_eq_some_iff.1 holds]
          exact nofun
        have led := tree.folder_above (List.cons_ne_nil next names) something
        exact .inr ⟨led, List.cons_ne_nil next names, below, content, holds⟩

/-- Lists that begin with ascending names are in ascending order, one entry after another. -/
theorem pairwise_flatMap_of_begins {listed : List (String × Item)}
    {f : String × Item → List (List String)} (ordered : listed.Pairwise fun x y => x.1 < y.1)
    (begins : ∀ entry, ∀ names ∈ f entry, ∃ rest, names = entry.1 :: rest)
    (inside : ∀ entry, (f entry).Pairwise (· < ·)) : (listed.flatMap f).Pairwise (· < ·) := by
  refine List.pairwise_flatMap.2 ⟨fun entry _ => inside entry, ordered.imp ?_⟩
  intro entry entry' before x mem y mem'
  obtain ⟨rest, rfl⟩ := begins entry x mem
  obtain ⟨rest', rfl⟩ := begins entry' y mem'
  exact List.cons_lt_cons_iff.2 (.inl before)

theorem pairwise_filesUpTo (tree : d.IsTree) (depth : Nat) (folder : List String) :
    (d.filesUpTo depth folder).Pairwise (· < ·) := by
  induction depth generalizing folder with
  | zero => exact .nil
  | succ depth ih =>
    rw [filesUpTo]
    refine pairwise_flatMap_of_begins (pairwise_entries tree folder) ?_ ?_
    · rintro ⟨name, item⟩ names mem
      dsimp only at mem
      split at mem
      · cases mem
      · rcases item with content | _
        · exact ⟨[], List.mem_singleton.1 mem⟩
        · obtain ⟨rest, -, same⟩ := List.mem_map.1 mem
          exact ⟨rest, same.symm⟩
    · rintro ⟨name, item⟩
      dsimp only
      split
      · exact .nil
      · rcases item with content | _
        · exact List.pairwise_singleton ..
        · refine List.pairwise_map.2 ((ih (folder ++ [name])).imp ?_)
          intro a b before
          exact List.cons_lt_cons_iff.2 (.inr ⟨rfl, before⟩)

/-- The files that a walk through a folder lists. -/
theorem mem_filesIn (tree : d.IsTree) :
    names ∈ d.filesIn folder ↔ names ≠ [] ∧ (∀ name ∈ names, isHidden name = false) ∧
      ∃ content, d.file? (folder ++ names) = some content :=
  mem_filesUpTo tree (Nat.le_add_left ..)

theorem pairwise_filesIn (tree : d.IsTree) (folder : List String) :
    (d.filesIn folder).Pairwise (· < ·) :=
  pairwise_filesUpTo tree _ folder

/-- Lists in ascending order with the same members are the same. -/
theorem eq_of_pairwise_lt {a b : List (List String)} (first : a.Pairwise (· < ·))
    (second : b.Pairwise (· < ·)) (same : ∀ x, x ∈ a ↔ x ∈ b) : a = b := by
  have distinct : ∀ {l : List (List String)}, l.Pairwise (· < ·) → l.Nodup := by
    intro l ordered
    refine ordered.imp ?_
    rintro x _ before rfl
    exact List.lt_irrefl _ before
  refine List.Perm.eq_of_pairwise ?_ first second
    ((List.perm_ext_iff_of_nodup (distinct first) (distinct second)).2 same)
  intro x y _ _ before after
  exact absurd after (List.lt_asymm before)

/-- A listing is told by the files. -/
theorem filesIn_congr (tree : d.IsTree) (tree' : d'.IsTree) (same : d.file? = d'.file?)
    (folder : List String) : d.filesIn folder = d'.filesIn folder := by
  refine eq_of_pairwise_lt (pairwise_filesIn tree folder) (pairwise_filesIn tree' folder) ?_
  intro names
  rw [mem_filesIn tree, mem_filesIn tree', same]

end Longform.Disk

/-! ## Writing documents -/

namespace Longform.Vault

variable {v : Vault}

theorem grows_prepare (disk : Disk) (path : String) : disk.Grows (prepare disk path).2 := by
  rw [prepare]
  split
  · exact disk.grows_makeFolders _
  · exact .refl disk

/-- A document is written into a disk that may have got new folders, and the listing is dropped.
Where that is refused, the folders are all that has changed. -/
theorem write_cases (v : Vault) (d : Document) (text : String) :
    ∃ disk, v.disk.Grows disk ∧
      ((∃ fault, v.write d text = (.error (.disk fault), { v with disk })) ∨
        ∃ disk', disk.write (v.pathOf d) (.text text) = (.ok (), disk') ∧
          v.write d text = (.ok (), { v with disk := disk', listing := none })) := by
  have grows := grows_prepare v.disk (v.pathOf d)
  unfold write
  rcases folders : prepare v.disk (v.pathOf d) with ⟨fault | _, disk⟩
  · rw [folders] at grows
    exact ⟨disk, grows, .inl ⟨fault, rfl⟩⟩
  · rw [folders] at grows
    refine ⟨disk, grows, ?_⟩
    rcases written : disk.write (v.pathOf d) (.text text) with ⟨fault | _, disk'⟩
    · refine .inl ⟨fault, ?_⟩
      simp only [written]
      rw [Disk.write_eq_error written]
    · exact .inr ⟨disk', rfl, by simp only [written]⟩

/-- Writing keeps the disk a tree, also where it fails. -/
theorem tree_write (tree : v.disk.IsTree) (d : Document) (text : String) :
    (v.write d text).2.disk.IsTree := by
  obtain ⟨disk, grows, ⟨fault, failed⟩ | ⟨disk', written, done⟩⟩ := v.write_cases d text
  · rw [failed]
    exact grows.tree tree
  · rw [done]
    have kept := (grows.tree tree).write (v.pathOf d) (.text text)
    rw [written] at kept
    exact kept

end Longform.Vault
