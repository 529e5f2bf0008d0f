import Longform.Proofs.StoresAgree

/-!
# The listing of a vault over time

Anything may happen between two searches of a vault: it is searched, read and
written, and the disk is changed behind its back (`Vault.Deed`). The listing is a
snapshot, which the vault takes when it is searched, and drops when it has written
a document.

* `Searched`: the search since the latest write that takes the snapshot.
* `listing_waiting` and `listing_since`: there is no listing before this search and
  a fixed one after it, until a document is written.
* `find_snapshot`: every search answers from the documents of that moment. Where
  nothing else changes the disk, these are the documents there are.
-/

namespace Longform.Vault

/-- What happens to a vault. -/
inductive Deed where
  /-- Something else leaves the disk like this. -/
  | outside (disk : Disk)
  | find (address : String)
  | read (d : Document)
  | write (d : Document) (text : String)

namespace Deed

/-- The vault after a deed. -/
def next : Deed → Vault → Vault
  | outside disk, v => { v with disk }
  | find address, v => (Store.find address v).2
  | read d, v => (Store.read d v).2
  | write d text, v => (Store.write d text v).2

/-- A document is written. -/
def succeeds (v : Vault) : Deed → Bool
  | write d text => (Store.write d text v).1.isOk
  | outside _ | find _ | read _ => false

/-- A document cannot be written. -/
def fails (v : Vault) : Deed → Bool
  | write d text => !(Store.write d text v).1.isOk
  | outside _ | find _ | read _ => false

end Deed

/-- The vault after some deeds. -/
def after (v : Vault) (deeds : List Deed) : Vault := deeds.foldl (fun v deed => deed.next v) v

/-- None of the deeds writes a document. -/
def Unwritten (v : Vault) : List Deed → Prop
  | [] => True
  | deed :: more => deed.succeeds v = false ∧ (deed.next v).Unwritten more

/-- Documents that cannot be written leave the vault with the documents it had. -/
def FailuresKeep (v : Vault) : List Deed → Prop
  | [] => True
  | deed :: more =>
    (deed.fails v = true → (deed.next v).documents = v.documents) ∧ (deed.next v).FailuresKeep more

instance decidableUnwritten : (v : Vault) → (deeds : List Deed) → Decidable (v.Unwritten deeds)
  | _, [] => inferInstanceAs (Decidable True)
  | v, deed :: more =>
    have := decidableUnwritten (deed.next v) more
    inferInstanceAs (Decidable (_ ∧ _))

instance decidableFailuresKeep :
    (v : Vault) → (deeds : List Deed) → Decidable (v.FailuresKeep deeds)
  | _, [] => inferInstanceAs (Decidable True)
  | v, deed :: more =>
    have := decidableFailuresKeep (deed.next v) more
    inferInstanceAs (Decidable ((_ → _) ∧ _))

/-- Of the deeds, `past` ends with the latest document that is written, or nothing is written and
there is no `past`; then the vault is searched for the first time after the deeds in `waiting`. -/
structure Searched (v : Vault) (deeds past waiting : List Deed) (first : String)
    (more : List Deed) : Prop where
  whole : deeds = past ++ waiting ++ .find first :: more
  latest : past = [] ∨ ∃ earlier deed,
    past = earlier ++ [deed] ∧ deed.succeeds (v.after earlier) = true
  unsearched : ∀ address, .find address ∉ waiting
  unwritten : (v.after past).Unwritten (waiting ++ .find first :: more)

variable {v : Vault} {deed : Deed} {deeds past waiting more : List Deed} {address first : String}
  {d : Document} {text : String} {e : Error} {listed : List Document} {folder : List String}

theorem after_append (v : Vault) (deeds more : List Deed) :
    v.after (deeds ++ more) = (v.after deeds).after more :=
  List.foldl_append

theorem unwritten_append :
    v.Unwritten (deeds ++ more) ↔ v.Unwritten deeds ∧ (v.after deeds).Unwritten more := by
  induction deeds generalizing v with
  | nil => simp [Unwritten, after]
  | cons deed deeds ih =>
    rw [List.cons_append, Unwritten, Unwritten, ih, and_assoc]
    rfl

/-! ## One deed -/

theorem next_write (d : Document) (text : String) (v : Vault) :
    (Deed.write d text).next v = (v.write d text).2 := rfl

theorem succeeds_write (d : Document) (text : String) (v : Vault) :
    (Deed.write d text).succeeds v = (v.write d text).1.isOk := rfl

theorem fails_write (d : Document) (text : String) (v : Vault) :
    (Deed.write d text).fails v = !(v.write d text).1.isOk := rfl

theorem next_read (d : Document) (v : Vault) : (Deed.read d).next v = v := by
  change (v.read d).2 = v
  rw [read]
  split <;> rfl

theorem listing_of_succeeds (done : deed.succeeds v = true) : (deed.next v).listing = none := by
  rcases deed with disk | address | d | ⟨d, text⟩
  · cases done
  · cases done
  · cases done
  · obtain ⟨disk, -, ⟨fault, refused⟩ | ⟨disk', -, written⟩⟩ := v.write_cases d text
    · rw [succeeds_write, refused] at done
      cases done
    · rw [next_write, written]

/-- A deed that writes no document changes the listing by a search only. -/
theorem listing_of_not_succeeds (failed : deed.succeeds v = false)
    (noSearch : ∀ a, deed ≠ .find a) : (deed.next v).listing = v.listing := by
  rcases deed with disk | address | d | ⟨d, text⟩
  · rfl
  · exact absurd rfl (noSearch address)
  · rw [next_read]
  · obtain ⟨disk, -, ⟨fault, refused⟩ | ⟨disk', -, written⟩⟩ := v.write_cases d text
    · rw [next_write, refused]
    · rw [succeeds_write, written] at failed
      cases failed

/-! ## Deeds between two writes -/

/-- Until the vault is searched it has no listing. -/
theorem listing_waiting (none : v.listing = none) (unsearched : ∀ address, .find address ∉ deeds)
    (unwritten : v.Unwritten deeds) : (v.after deeds).listing = Option.none := by
  induction deeds generalizing v with
  | nil => exact none
  | cons deed deeds ih =>
    obtain ⟨failed, rest⟩ := unwritten
    have noSearch : ∀ a, deed ≠ .find a := by
      rintro a rfl
      exact unsearched a (List.mem_cons_self ..)
    have kept := listing_of_not_succeeds failed noSearch
    exact ih (kept.trans none) (fun a mem => unsearched a (List.mem_cons_of_mem _ mem)) rest

/-- Once there is a listing it stays until a document is written. -/
theorem listing_since (some : v.listing = some listed) (unwritten : v.Unwritten deeds) :
    (v.after deeds).listing = Option.some listed := by
  induction deeds generalizing v with
  | nil => exact some
  | cons deed deeds ih =>
    obtain ⟨failed, rest⟩ := unwritten
    refine ih ?_ rest
    by_cases search : ∃ a, deed = .find a
    · obtain ⟨a, rfl⟩ := search
      change Option.some (v.listing.getD v.documents) = _
      rw [some, Option.getD_some]
    · rw [listing_of_not_succeeds failed fun a same => search ⟨a, same⟩, some]

/-- No listing outlives a document that is written. -/
theorem listing_of_latest (fresh : v.listing = none)
    (latest : past = [] ∨ ∃ earlier deed, past = earlier ++ [deed] ∧
      deed.succeeds (v.after earlier) = true) : (v.after past).listing = none := by
  rcases latest with rfl | ⟨earlier, deed, rfl, done⟩
  · exact fresh
  · rw [after_append]
    exact listing_of_succeeds done

theorem exists_latest (v : Vault) (deeds : List Deed) :
    ∃ past since, deeds = past ++ since ∧
      (past = [] ∨ ∃ earlier deed,
        past = earlier ++ [deed] ∧ deed.succeeds (v.after earlier) = true) ∧
      (v.after past).Unwritten since := by
  induction deeds generalizing v with
  | nil => exact ⟨[], [], rfl, .inl rfl, trivial⟩
  | cons deed deeds ih =>
    obtain ⟨past, since, rfl, latest, unwritten⟩ := ih (deed.next v)
    rcases latest with rfl | ⟨earlier, last, rfl, done⟩
    · by_cases written : deed.succeeds v = true
      · exact ⟨[deed], since, rfl, .inr ⟨[], deed, rfl, written⟩, unwritten⟩
      · rw [Bool.not_eq_true] at written
        exact ⟨[], deed :: since, rfl, .inl rfl, written, unwritten⟩
    · exact ⟨deed :: (earlier ++ [last]), since, rfl, .inr ⟨deed :: earlier, last, rfl, done⟩,
        unwritten⟩

theorem exists_first (mem : .find address ∈ deeds) :
    ∃ waiting first more, deeds = waiting ++ .find first :: more ∧
      ∀ a, Deed.find a ∉ waiting := by
  induction deeds with
  | nil => cases mem
  | cons deed deeds ih =>
    by_cases search : ∃ a, deed = .find a
    · obtain ⟨a, rfl⟩ := search
      exact ⟨[], a, deeds, rfl, fun _ => List.not_mem_nil⟩
    · have later := (List.mem_cons.1 mem).resolve_left fun same => search ⟨address, same.symm⟩
      obtain ⟨waiting, first, more, rfl, unsearched⟩ := ih later
      refine ⟨deed :: waiting, first, more, rfl, fun a among => ?_⟩
      rcases List.mem_cons.1 among with same | rest
      · exact search ⟨a, same.symm⟩
      · exact unsearched a rest

/-- Whatever has happened, a search finds a snapshot or takes one. -/
theorem exists_searched (v : Vault) (history : List Deed) (address : String) :
    ∃ past waiting first more,
      Searched v (history ++ [.find address]) past waiting first more := by
  obtain ⟨past, since, whole, latest, unwritten⟩ := exists_latest v (history ++ [.find address])
  have mem : Deed.find address ∈ since := by
    rcases List.eq_nil_or_concat since with rfl | ⟨before, last, rfl⟩
    · -- The last deed is a search and writes nothing.
      rw [List.append_nil] at whole
      rcases latest with rfl | ⟨earlier, deed, rfl, done⟩
      · simp at whole
      · obtain ⟨-, same⟩ := List.append_inj' whole rfl
        cases same
        cases done
    · rw [List.concat_eq_append, ← List.append_assoc] at whole
      obtain ⟨-, same⟩ := List.append_inj' whole rfl
      rw [List.concat_eq_append, ← same]
      exact List.mem_append_right _ (List.mem_cons_self ..)
  obtain ⟨waiting, first, more, rfl, unsearched⟩ := exists_first mem
  rw [← List.append_assoc] at whole
  exact ⟨past, waiting, first, more, whole, latest, unsearched, unwritten⟩

/-- A search answers from the documents there were when the snapshot was taken. -/
theorem Searched.find_eq (fresh : v.listing = none) {history : List Deed}
    (searched : Searched v (history ++ [.find address]) past waiting first more) :
    (Store.find address (v.after history)).1 =
      Lookup.search address (v.after (past ++ waiting)).documents := by
  obtain ⟨whole, latest, unsearched, unwritten⟩ := searched
  rw [unwritten_append, ← after_append] at unwritten
  have waited : (v.after (past ++ waiting)).listing = none := by
    rw [after_append]
    exact listing_waiting (listing_of_latest fresh latest) unsearched unwritten.1
  change Lookup.search address ((v.after history).listing.getD (v.after history).documents) = _
  rcases List.eq_nil_or_concat more with rfl | ⟨between, last, rfl⟩
  · obtain ⟨rfl, -⟩ := List.append_inj' whole rfl
    rw [waited, Option.getD_none]
  · rw [List.concat_eq_append, ← List.cons_append, ← List.append_assoc] at whole
    obtain ⟨rfl, -⟩ := List.append_inj' whole rfl
    have taken : ((Deed.find first).next (v.after (past ++ waiting))).listing =
        some (v.after (past ++ waiting)).documents := by
      change some ((v.after (past ++ waiting)).listing.getD _) = _
      rw [waited, Option.getD_none]
    rw [List.concat_eq_append] at unwritten
    have kept := listing_since taken (unwritten_append.1 unwritten.2.2).1
    rw [after_append _ (past ++ waiting)]
    change Lookup.search address (((Deed.find first).next (v.after (past ++ waiting))).after
      between |>.listing.getD _) = _
    rw [kept, Option.getD_some]

/-! ## Deeds of the vault alone -/

/-- Whatever a vault does to its disk, the disk stays a tree and the path of the vault leads where
it led. -/
theorem next_reached (own : ∀ disk, deed ≠ .outside disk) (tree : v.disk.IsTree)
    (led : v.disk.locate v.root = .ok folder) :
    (deed.next v).disk.IsTree ∧ (deed.next v).disk.locate (deed.next v).root = .ok folder := by
  rcases deed with disk | address | d | ⟨d, text⟩
  · exact absurd rfl (own disk)
  · exact ⟨tree, led⟩
  · rw [next_read]
    exact ⟨tree, led⟩
  · rw [next_write]
    refine ⟨tree_write tree d text, ?_⟩
    obtain ⟨disk, grows, ⟨fault, refused⟩ | ⟨disk', done, written⟩⟩ := v.write_cases d text
    · rw [refused]
      exact grows.led led
    · rw [written]
      have kept := Disk.locate_write (grows.led led) (v.pathOf d) (.text text)
      rwa [done] at kept

/-- A document that cannot be written leaves the documents, where the path of the vault leads
somewhere. -/
theorem documents_of_fails (failed : deed.fails v = true) (tree : v.disk.IsTree)
    (led : v.disk.locate v.root = .ok folder) : (deed.next v).documents = v.documents := by
  rcases deed with disk | address | d | ⟨d, text⟩
  · cases failed
  · cases failed
  · cases failed
  · rw [fails_write] at failed
    rw [next_write]
    obtain ⟨disk, grows, ⟨fault, refused⟩ | ⟨disk', -, written⟩⟩ := v.write_cases d text
    · rw [refused, documents_eq led, documents_eq (grows.led led)]
      exact congrArg _ (Disk.filesIn_congr (grows.tree tree) tree grows.files folder)
    · rw [written] at failed
      cases failed

theorem failuresKeep_of_tree (own : ∀ disk, .outside disk ∉ deeds) (tree : v.disk.IsTree)
    (led : v.disk.locate v.root = .ok folder) : v.FailuresKeep deeds := by
  induction deeds generalizing v with
  | nil => trivial
  | cons deed deeds ih =>
    have first : ∀ disk, deed ≠ .outside disk := by
      rintro disk rfl
      exact own disk (List.mem_cons_self ..)
    obtain ⟨tree', led'⟩ := next_reached first tree led
    exact ⟨fun failed => documents_of_fails failed tree led,
      ih (fun disk mem => own disk (List.mem_cons_of_mem _ mem)) tree' led'⟩

/-- What is listed is what there is, as long as nothing else changes the disk. -/
theorem listed_after (now : v.listed = v.documents) (own : ∀ disk, .outside disk ∉ deeds)
    (kept : v.FailuresKeep deeds) : (v.after deeds).listed = (v.after deeds).documents := by
  induction deeds generalizing v with
  | nil => exact now
  | cons deed deeds ih =>
    obtain ⟨same, rest⟩ := kept
    suffices later : (deed.next v).listed = (deed.next v).documents from
      ih later (fun disk mem => own disk (List.mem_cons_of_mem _ mem)) rest
    rcases deed with disk | address | d | ⟨d, text⟩
    · exact absurd (List.mem_cons_self ..) (own disk)
    · exact now
    · rw [next_read]
      exact now
    · rw [next_write] at same ⊢
      obtain ⟨disk, -, ⟨fault, refused⟩ | ⟨disk', -, written⟩⟩ := v.write_cases d text
      · have documents : (v.write d text).2.documents = v.documents := by
          refine same ?_
          rw [fails_write, refused]
          rfl
        have listing : (v.write d text).2.listing = v.listing := by rw [refused]
        rw [listed, listing, documents]
        exact now
      · rw [written]
        rfl

/-- Whatever has happened to a vault since it was made, a search answers from the documents that
there were at the first search since the latest document that was written, or since the vault was
made. Where nothing else has changed the disk and a document that could not be written has not
changed the documents, these are the documents there are; on a tree where the path of the vault
leads somewhere, no failure changes them. The documents are then the files in the folder of the
vault that are not hidden. -/
theorem find_snapshot (fresh : v.listing = none) (history : List Deed) (address : String) :
    (∃ past waiting first more,
      Searched v (history ++ [.find address]) past waiting first more) ∧
    (∀ past waiting first more, Searched v (history ++ [.find address]) past waiting first more →
      (Store.find address (v.after history)).1 =
        Lookup.search address (v.after (past ++ waiting)).documents) ∧
    ((∀ disk, .outside disk ∉ history) → v.FailuresKeep history →
      (Store.find address (v.after history)).1 =
        Lookup.search address (v.after history).documents) ∧
    ((∀ disk, .outside disk ∉ history) → v.disk.IsTree →
      ∀ folder, v.disk.locate v.root = .ok folder → v.FailuresKeep history) ∧
    ∀ w : Vault, w.disk.IsTree → ∀ folder, w.disk.locate w.root = .ok folder →
      ∀ d, d ∈ w.documents ↔ ∃ names, d = .ofNames names ∧ names ≠ [] ∧
        (∀ name ∈ names, Disk.isHidden name = false) ∧
          ∃ content, w.disk.file? (folder ++ names) = some content := by
  refine ⟨exists_searched v history address, fun past waiting first more => Searched.find_eq fresh,
    fun own kept => ?_, fun own tree folder => failuresKeep_of_tree own tree,
    fun w tree folder led d => mem_documents_iff tree led⟩
  have now : v.listed = v.documents := by rw [listed, fresh, Option.getD_none]
  exact congrArg (Lookup.search address) (listed_after now own kept)

/-- A vault with one note. -/
def shelf : Vault :=
  .atFolder "/v" ⟨[(["v"], .folder), (["v", "First.md"], .file (.text "one"))], []⟩

/-- A note appears behind the back of the vault, and one cannot be written because it would lie in a
note. -/
def behindItsBack : List Deed :=
  [.find "First", .outside (shelf.disk.put ["v", "Second.md"] (.file (.text "two"))),
    .write ⟨"First.md/Lost.md"⟩ "", .read ⟨"Second.md"⟩]

/-- Afterwards a note is looked for in vain and another one is written. -/
def andWritten : List Deed := behindItsBack ++ [.find "Second", .write ⟨"Third.md"⟩ "three"]

/-- What the vault does by itself. -/
def byItself : List Deed :=
  [.find "First", .write ⟨"First.md/Lost.md"⟩ "", .write ⟨"deep/Third.md"⟩ "three", .find "First"]

theorem find_snapshot_shelf :
    shelf.listing = none ∧
    Searched shelf (behindItsBack ++ [.find "Second"]) [] [] "First"
      (behindItsBack.tail ++ [.find "Second"]) ∧
    (Store.find "Second" (shelf.after behindItsBack)).1.found = none ∧
    Searched shelf (andWritten ++ [.find "Second"]) andWritten [] "Second" [] ∧
    (Store.find "Second" (shelf.after andWritten)).1.found = some ⟨"Second.md"⟩ ∧
    (∀ disk, Deed.outside disk ∉ byItself) ∧ shelf.FailuresKeep byItself ∧
    (Store.find "Third" (shelf.after byItself)).1.found = some ⟨"deep/Third.md"⟩ := by
  have fresh : shelf.listing = none := rfl
  have stale : Searched shelf (behindItsBack ++ [.find "Second"]) [] [] "First"
      (behindItsBack.tail ++ [.find "Second"]) :=
    ⟨rfl, .inl rfl, fun _ => List.not_mem_nil, by decide +kernel⟩
  have renewed : Searched shelf (andWritten ++ [.find "Second"]) andWritten [] "Second" [] :=
    ⟨rfl, .inr ⟨behindItsBack ++ [.find "Second"], _, rfl, by decide +kernel⟩,
      fun _ => List.not_mem_nil, by decide +kernel⟩
  have own : ∀ disk, Deed.outside disk ∉ byItself := by simp [byItself]
  have kept : shelf.FailuresKeep byItself := by decide +kernel
  obtain ⟨-, before, -⟩ := find_snapshot fresh behindItsBack "Second"
  obtain ⟨-, later, -⟩ := find_snapshot fresh andWritten "Second"
  obtain ⟨-, -, current, -⟩ := find_snapshot fresh byItself "Third"
  refine ⟨fresh, stale, ?_, renewed, ?_, own, kept, ?_⟩
  · rw [before _ _ _ _ stale]
    decide +kernel
  · rw [later _ _ _ _ renewed]
    decide +kernel
  · rw [current own kept]
    decide +kernel

end Longform.Vault
