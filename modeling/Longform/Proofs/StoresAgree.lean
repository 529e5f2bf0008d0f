import Longform.Proofs.Folders
import Longform.Proofs.Listing
import Longform.Store.Memory
import Longform.Store.Vault

/-!
# One search, two stores

A vault is listed by a walk through its folders and a memory keeps its documents
in the order of their paths. Both orders are the same: a folder stands among the
files beside it at the place of its name, and what it holds stands there too.

* `Path.precedes_asymm`, `Path.precedes_trans` and `Path.precedes_total`: the order
  of paths is a strict total order.
* `Memory.Ordered.insert`: a memory stays in this order.
* `Vault.mem_documents_iff` and `Vault.pairwise_documents`: a vault is listed in it.
* `Store.find_same`: on the same documents both stores answer every address alike.
-/

namespace Longform

open Text

/-! ## The order of paths -/

namespace Path

namespace Component

variable {a b c : Component}

theorem precedes_name_iff {m n : String} : (name m).precedes (name n) = true ↔ m < n :=
  decide_eq_true_iff

theorem precedes_asymm (before : a.precedes b = true) : b.precedes a ≠ true := by
  cases a <;> cases b
  case name.name m n =>
    rw [precedes_name_iff] at before
    exact fun after => String.lt_asymm before (precedes_name_iff.1 after)
  all_goals simp_all [precedes, rank]

theorem precedes_trans (before : a.precedes b = true) (after : b.precedes c = true) :
    a.precedes c = true := by
  cases a <;> cases b <;> cases c
  case name.name.name l m n =>
    rw [precedes_name_iff] at before after ⊢
    exact String.lt_trans before after
  all_goals simp_all [precedes, rank]

theorem precedes_total (ne : a ≠ b) : a.precedes b = true ∨ b.precedes a = true := by
  cases a <;> cases b
  case name.name m n =>
    rw [precedes_name_iff, precedes_name_iff]
    exact (Std.lt_trichotomy m n).imp_right fun rest => rest.resolve_left fun same =>
      ne (congrArg name same)
  all_goals simp_all [precedes, rank]

end Component

variable {a b c : List Component} {x y : Component}

theorem cons_precedes_cons_iff :
    precedes (x :: a) (y :: b) = true ↔ x.precedes y = true ∨ x = y ∧ precedes a b = true := by
  rw [precedes, Bool.or_eq_true, Bool.and_eq_true, beq_iff_eq]

theorem precedes_asymm (before : precedes a b = true) : precedes b a ≠ true := by
  induction a generalizing b with
  | nil => cases b <;> exact nofun
  | cons x a ih =>
    rcases b with _ | ⟨y, b⟩
    · cases before
    · rw [Ne, cons_precedes_cons_iff]
      rcases cons_precedes_cons_iff.1 before with first | ⟨rfl, rest⟩
      · rintro (back | ⟨rfl, -⟩)
        · exact Component.precedes_asymm first back
        · exact Component.precedes_asymm first first
      · rintro (back | ⟨-, back⟩)
        · exact Component.precedes_asymm back back
        · exact ih rest back

theorem precedes_trans (before : precedes a b = true) (after : precedes b c = true) :
    precedes a c = true := by
  induction a generalizing b c with
  | nil =>
    rcases c with _ | ⟨z, c⟩
    · cases b <;> cases after
    · rfl
  | cons x a ih =>
    rcases b with _ | ⟨y, b⟩
    · cases before
    rcases c with _ | ⟨z, c⟩
    · cases after
    rw [cons_precedes_cons_iff] at before after ⊢
    rcases before with first | ⟨rfl, rest⟩
    · rcases after with next | ⟨rfl, -⟩
      · exact .inl (Component.precedes_trans first next)
      · exact .inl first
    · rcases after with next | ⟨rfl, rest'⟩
      · exact .inl next
      · exact .inr ⟨rfl, ih rest rest'⟩

theorem precedes_total (ne : a ≠ b) : precedes a b = true ∨ precedes b a = true := by
  induction a generalizing b with
  | nil =>
    rcases b with _ | ⟨y, b⟩
    · exact absurd rfl ne
    · exact .inl rfl
  | cons x a ih =>
    rcases b with _ | ⟨y, b⟩
    · exact .inr rfl
    rw [cons_precedes_cons_iff, cons_precedes_cons_iff]
    by_cases first : x = y
    · subst first
      rcases ih fun same => ne (by rw [same]) with before | after
      · exact .inl (.inr ⟨rfl, before⟩)
      · exact .inr (.inr ⟨rfl, after⟩)
    · exact (Component.precedes_total first).imp .inl .inl

/-- Names on the way are compared one after another. -/
theorem precedes_names_iff {names names' : List String} :
    precedes (names.map .name) (names'.map .name) = true ↔ names < names' := by
  induction names generalizing names' with
  | nil => cases names' <;> simp [precedes]
  | cons name names ih =>
    rcases names' with _ | ⟨name', names'⟩
    · simp [precedes]
    · rw [List.map_cons, List.map_cons, cons_precedes_cons_iff, ih, List.cons_lt_cons_iff]
      simp [Component.precedes]

/-- The names on the way to a document that no walk passes over. -/
structure IsShown (names : List String) : Prop where
  ne_nil : names ≠ []
  proper : ∀ name ∈ names, IsName name
  shown : ∀ name ∈ names, Disk.isHidden name = false

end Path

/-! ## Documents in order -/

namespace Document

/-- The document that the names lead to. -/
def ofNames (names : List String) : Document := ⟨Path.ofNames names⟩

/-- The order of documents is that of their paths. -/
def Precedes (d e : Document) : Prop := Path.precedes (Memory.key d) (Memory.key e) = true

variable {names names' : List String}

theorem key_ofNames (shown : Path.IsShown names) :
    Memory.key (ofNames names) = names.map .name :=
  Path.components_ofNames shown.ne_nil shown.proper

theorem ofNames_precedes_iff (shown : Path.IsShown names) (shown' : Path.IsShown names') :
    (ofNames names).Precedes (ofNames names') ↔ names < names' := by
  rw [Precedes, key_ofNames shown, key_ofNames shown', Path.precedes_names_iff]

/-- Documents in order are told by which ones they are. -/
theorem eq_of_pairwise_precedes {ds es : List Document} (first : ds.Pairwise Precedes)
    (second : es.Pairwise Precedes) (same : ∀ d, d ∈ ds ↔ d ∈ es) : ds = es := by
  have distinct : ∀ {l : List Document}, l.Pairwise Precedes → l.Nodup := by
    intro l ordered
    refine ordered.imp ?_
    rintro d _ before rfl
    exact Path.precedes_asymm before before
  refine List.Perm.eq_of_pairwise ?_ first second
    ((List.perm_ext_iff_of_nodup (distinct first) (distinct second)).2 same)
  intro d e _ _ before after
  exact absurd after (Path.precedes_asymm before)

end Document

namespace Memory

variable {m : Memory} {d : Document} {text : String} {docs : List (Document × String)}

/-- The documents are in the order of their paths, and each path is there once. -/
def Ordered (m : Memory) : Prop := (m.documents.map (·.1)).Pairwise Document.Precedes

theorem ordered_empty : empty.Ordered := .nil

/-- What a document is put among is still there, and the document itself is new at most. -/
theorem mem_put {e : Document} (mem : e ∈ (put d text docs).map (·.1)) :
    e = d ∨ e ∈ docs.map (·.1) := by
  fun_induction put d text docs with
  | case1 => exact .inl (List.mem_singleton.1 mem)
  | case2 e' old more here => exact .inr mem
  | case3 => exact List.mem_cons.1 mem
  | case4 e' old more _ _ ih =>
    rcases List.mem_cons.1 mem with rfl | later
    · exact .inr (List.mem_cons_self ..)
    · exact (ih later).imp_right (List.mem_cons_of_mem _)

theorem pairwise_put (ordered : (docs.map (·.1)).Pairwise Document.Precedes) :
    ((put d text docs).map (·.1)).Pairwise Document.Precedes := by
  fun_induction put d text docs with
  | case1 => exact List.pairwise_singleton ..
  | case2 => exact ordered
  | case3 e old more _ before =>
    refine List.pairwise_cons.2 ⟨?_, ordered⟩
    intro x mem
    rcases List.mem_cons.1 mem with rfl | later
    · exact before
    · exact Path.precedes_trans before ((List.pairwise_cons.1 ordered).1 x later)
  | case4 e old more apart notBefore ih =>
    obtain ⟨first, others⟩ := List.pairwise_cons.1 ordered
    refine List.pairwise_cons.2 ⟨?_, ih others⟩
    intro x mem
    rcases mem_put mem with rfl | later
    · have ne : key x ≠ key e := by simpa [same] using apart
      exact (Path.precedes_total ne).resolve_left notBefore
    · exact first x later

/-- A memory stays in order. -/
theorem Ordered.insert (ordered : m.Ordered) (d : Document) (text : String) :
    (m.insert d text).Ordered :=
  pairwise_put ordered

/-- The documents of the memory are those that the names lead to. -/
structure Contains (m : Memory) (places : List (List String)) : Prop where
  ordered : m.Ordered
  documents : ∀ d, d ∈ m.documents.map (·.1) ↔ d ∈ places.map Document.ofNames

/-- The memory with some texts, which are kept one after another. -/
def ofTexts (texts : List (List String × String)) : Memory :=
  texts.foldl (fun m (names, text) => m.insert (.ofNames names) text) empty

theorem mem_put_iff {e : Document} (spelled : ∀ e ∈ docs.map (·.1), key d = key e → d = e) :
    e ∈ (put d text docs).map (·.1) ↔ e = d ∨ e ∈ docs.map (·.1) := by
  fun_induction put d text docs with
  | case1 => simp
  | case2 f old more here =>
    have same : d = f := spelled f (List.mem_cons_self ..) (by simpa [same] using here)
    simp [same]
  | case3 => exact List.mem_cons
  | case4 f old more _ _ ih =>
    have rest := ih fun e mem => spelled e (List.mem_cons_of_mem _ mem)
    rw [List.map_cons, List.mem_cons, rest, List.map_cons, List.mem_cons, or_left_comm]

/-- In whatever order texts are kept, the memory contains them all. -/
theorem contains_ofTexts {texts : List (List String × String)}
    (shown : ∀ x ∈ texts, Path.IsShown x.1) : (ofTexts texts).Contains (texts.map (·.1)) := by
  have general : ∀ (kept : List (List String)) (m : Memory),
      (∀ names ∈ kept, Path.IsShown names) → m.Contains kept →
      (texts.foldl (fun m (names, text) => m.insert (.ofNames names) text) m).Contains
        (kept ++ texts.map (·.1)) := by
    induction texts with
    | nil =>
      intro kept m _ contains
      rwa [List.map_nil, List.append_nil]
    | cons x texts ih =>
      intro kept m shownKept contains
      obtain ⟨first, others⟩ := List.forall_mem_cons.1 shown
      rw [List.map_cons, List.append_cons, List.foldl_cons]
      refine ih others _ _ ?_ ⟨contains.ordered.insert .., fun d => ?_⟩
      · exact List.forall_mem_append.2 ⟨shownKept, List.forall_mem_singleton.2 first⟩
      · have spelled : ∀ e ∈ m.documents.map (·.1),
            key (.ofNames x.1) = key e → Document.ofNames x.1 = e := by
          intro e mem same
          obtain ⟨names, among, rfl⟩ := List.mem_map.1 ((contains.documents e).1 mem)
          rw [Document.key_ofNames first, Document.key_ofNames (shownKept names among)] at same
          rw [(List.map_inj_right fun _ _ => Path.Component.name.inj).1 same]
        refine (mem_put_iff spelled).trans ?_
        rw [contains.documents]
        simp [or_comm]
  exact general [] empty nofun ⟨ordered_empty, fun _ => by simp [empty]⟩

end Memory

namespace Vault

variable {v : Vault} {d : Document} {folder : List String}

/-- The files of the vault are those that the names lead to. -/
structure Contains (v : Vault) (places : List (List String)) : Prop where
  tree : v.disk.IsTree
  files : ∃ folder, v.disk.locate v.root = .ok folder ∧ ∀ names,
    names ∈ places ↔ ∃ content, v.disk.file? (folder ++ names) = some content

theorem documents_eq (led : v.disk.locate v.root = .ok folder) :
    v.documents = (v.disk.filesIn folder).map Document.ofNames := by
  rw [documents, led]
  rfl

/-- The documents of a vault are the files in its folder that are not hidden. -/
theorem mem_documents_iff (tree : v.disk.IsTree) (led : v.disk.locate v.root = .ok folder) :
    d ∈ v.documents ↔ ∃ names, d = .ofNames names ∧ names ≠ [] ∧
      (∀ name ∈ names, Disk.isHidden name = false) ∧
        ∃ content, v.disk.file? (folder ++ names) = some content := by
  rw [documents_eq led, List.mem_map]
  constructor
  · rintro ⟨names, mem, rfl⟩
    exact ⟨names, rfl, (Disk.mem_filesIn tree).1 mem⟩
  · rintro ⟨names, rfl, there⟩
    exact ⟨names, (Disk.mem_filesIn tree).2 there, rfl⟩

/-- They are listed in the order of their paths. -/
theorem pairwise_documents (tree : v.disk.IsTree) (led : v.disk.locate v.root = .ok folder)
    (shown : ∀ names ∈ v.disk.filesIn folder, Path.IsShown names) :
    v.documents.Pairwise Document.Precedes := by
  rw [documents_eq led, List.pairwise_map]
  refine (Disk.pairwise_filesIn tree folder).imp_of_mem ?_
  intro names names' mem mem' before
  exact (Document.ofNames_precedes_iff (shown names mem) (shown names' mem')).2 before

/-- The vault with some texts, which are written one after another. -/
def writeAll (v : Vault) (texts : List (List String × String)) : Vault :=
  texts.foldl (fun v (names, text) => (v.write (.ofNames names) text).2) v

theorem tree_writeAll (tree : v.disk.IsTree) (texts : List (List String × String)) :
    (v.writeAll texts).disk.IsTree := by
  rw [writeAll]
  induction texts generalizing v with
  | nil => exact tree
  | cons x texts ih => exact ih (tree_write tree _ _)

end Vault

namespace Lookup

/-- What a search brings where the address names these documents. -/
def ofNamed (address : String) : List Document → Lookup
  | [] => ⟨none, [missingWarning address]⟩
  | first :: others =>
    ⟨some first, if isImageAddress address then [] else others.map (repeatedWarning address)⟩

theorem search_eq_ofNamed (address : String) (documents : List Document) :
    search address documents =
      ofNamed address (documents.filter (matchesAddress address (isImageAddress address))) := by
  rw [search]
  split
  · next none => rw [none, ofNamed]
  · next first others some => rw [some, ofNamed]

end Lookup

/-- A vault that is searched for the first time and a memory with the same documents answer every
address alike. Of the documents that the address names the first one in the order of paths is
found, and each further one is worth a warning in this order, unless the address is that of an
image; where there is none, that is the only warning. That no document lies where another is a
folder follows from their being files of a vault. -/
theorem Store.find_same {v : Vault} {m : Memory} {places : List (List String)}
    (shown : ∀ names ∈ places, Path.IsShown names) (fresh : v.listing = none)
    (vault : v.Contains places) (memory : m.Contains places) (address : String) :
    ∃ named : List Document, named.Pairwise Document.Precedes ∧
      (∀ d, d ∈ named ↔ d ∈ places.map Document.ofNames ∧
        Lookup.matchesAddress address (isImageAddress address) d = true) ∧
      (Store.find address v).1 = Lookup.ofNamed address named ∧
      (Store.find address m).1 = Lookup.ofNamed address named := by
  obtain ⟨tree, folder, led, files⟩ := vault
  have listed : ∀ names, names ∈ v.disk.filesIn folder ↔ names ∈ places := by
    intro names
    rw [Disk.mem_filesIn tree, ← files]
    constructor
    · exact fun there => there.2.2
    · exact fun mem => ⟨(shown names mem).ne_nil, (shown names mem).shown, mem⟩
  have ordered := Vault.pairwise_documents tree led
    fun names mem => shown names ((listed names).1 mem)
  have members : ∀ d, d ∈ v.documents ↔ d ∈ places.map Document.ofNames := by
    intro d
    rw [Vault.documents_eq led, List.mem_map, List.mem_map]
    simp only [listed]
  have same : v.documents = m.documents.map (·.1) := by
    refine Document.eq_of_pairwise_precedes ordered memory.ordered fun d => ?_
    rw [members, memory.documents]
  refine ⟨v.documents.filter (Lookup.matchesAddress address (isImageAddress address)),
    ordered.filter _, fun d => ?_, ?_, ?_⟩
  · rw [List.mem_filter, members]
  · change Lookup.search address (v.listing.getD v.documents) = _
    rw [fresh, Option.getD_none, Lookup.search_eq_ofNamed]
  · change Lookup.search address (m.documents.map (·.1)) = _
    rw [← same, Lookup.search_eq_ofNamed]

/-- Notes and images of one name beside and below each other. -/
def neighbours : List (List String × String) :=
  [(["b", "note.md"], "# Later\n"), (["a.md"], "![[note]]\n"), (["b", "plot.png"], ""),
    (["a", "Note.md"], "# First\n"), (["a", "x", "plot.png"], "")]

/-- The neighbours in a folder of an empty disk. -/
def neighbourVault : Vault := (Vault.atFolder "/v" ⟨[], []⟩).writeAll neighbours

theorem Store.find_same_neighbours :
    (∀ names ∈ neighbours.map (·.1), Path.IsShown names) ∧ neighbourVault.listing = none ∧
    neighbourVault.Contains (neighbours.map (·.1)) ∧
    (Memory.ofTexts neighbours).Contains (neighbours.map (·.1)) ∧
    (Store.find "NOTE" neighbourVault).1 = (Store.find "NOTE" (Memory.ofTexts neighbours)).1 ∧
    (Store.find "NOTE" neighbourVault).1.found = some ⟨"a/Note.md"⟩ ∧
    (Store.find "NOTE" neighbourVault).1.warnings =
      [Lookup.repeatedWarning "NOTE" ⟨"b/note.md"⟩] := by
  have shown : ∀ names ∈ neighbours.map (·.1), Path.IsShown names := by
    have proper : ∀ names ∈ neighbours.map (·.1), names ≠ [] ∧ ∀ name ∈ names,
        name.toList ≠ [] ∧ name.toList ≠ ['.'] ∧ name.toList ≠ ['.', '.'] ∧ '/' ∉ name.toList ∧
          Disk.isHidden name = false := by decide +kernel
    intro names mem
    obtain ⟨some, each⟩ := proper names mem
    refine ⟨some, fun name among => ?_, fun name among => (each name among).2.2.2.2⟩
    obtain ⟨ne_nil, ne_here, ne_up, noSlash, -⟩ := each name among
    exact ⟨ne_nil, ne_here, ne_up, noSlash⟩
  have fresh : neighbourVault.listing = none := by decide +kernel
  have tree : neighbourVault.disk.IsTree :=
    Vault.tree_writeAll (Disk.isTree_nil []) neighbours
  have items : neighbourVault.disk.items =
      [(["v"], .folder), (["v", "a"], .folder), (["v", "a", "Note.md"], .file (.text "# First\n")),
        (["v", "a", "x"], .folder), (["v", "a", "x", "plot.png"], .file (.text "")),
        (["v", "a.md"], .file (.text "![[note]]\n")), (["v", "b"], .folder),
        (["v", "b", "note.md"], .file (.text "# Later\n")),
        (["v", "b", "plot.png"], .file (.text ""))] := by decide +kernel
  have vault : neighbourVault.Contains (neighbours.map (·.1)) := by
    have led : (neighbourVault.disk.locate neighbourVault.root).toOption = some ["v"] := by
      decide +kernel
    rcases root : neighbourVault.disk.locate neighbourVault.root with fault | folder
    · rw [root] at led
      cases led
    rw [root] at led
    cases led
    refine ⟨tree, ["v"], root, fun names => ?_⟩
    simp only [Disk.file?_eq_some_iff, ← tree.mem_items_iff (List.cons_ne_nil "v" names),
      List.singleton_append, items]
    simp only [neighbours, List.map_cons, List.map_nil, List.mem_cons, List.not_mem_nil, or_false]
    simp only [Prod.mk.injEq, List.cons.injEq, true_and, reduceCtorEq, and_false, false_or,
      exists_or, exists_and_left, Item.file.injEq, exists_eq, and_true]
    grind
  have memory : (Memory.ofTexts neighbours).Contains (neighbours.map (·.1)) :=
    Memory.contains_ofTexts fun x mem => shown x.1 (List.mem_map_of_mem mem)
  obtain ⟨named, -, -, first, second⟩ := Store.find_same shown fresh vault memory "NOTE"
  have same := first.trans second.symm
  refine ⟨shown, fresh, vault, memory, same, ?_, ?_⟩
  · rw [same]
    decide +kernel
  · rw [same]
    decide +kernel

end Longform
