import Longform.Disk

/-!
# Files on a disk

What the operations of a disk do to its files, by the places they lie at.
`Disk.file?` is what a file holds.

* `file?_makeFolder`: creating a folder changes no file. What creating one does,
  creating the missing ones of several does too (`makeFirst_induction`).
* `write_eq_error` and `write_eq_ok`: writing a file that is refused changes nothing,
  and one that succeeds changes the file that the path leads to from then on, and
  no other.
* `read_eq_ok_iff`: what is read is what the file holds that the path leads to, so that
  a text that has been written is read back (`read_write`).
-/

namespace Longform.Disk

open Text

variable {d d' : Disk} {place other target start : List String} {item : Item} {content : Content}
  {path : String} {pieces : List (List Char)} {fault : DiskFault}

/-- What the file at a place holds, if there is one. -/
def file? (d : Disk) (place : List String) : Option Content :=
  match d.item? place with
  | some (.file content) => some content
  | some .folder => none
  | none => none

/-! ## Putting items -/

theorem lookup_putItem_of_ne (ne : other ≠ place) (items : List (List String × Item)) :
    (putItem place item items).lookup other = items.lookup other := by
  have apart : (other == place) = false := beq_eq_false_iff_ne.2 ne
  fun_induction putItem place item items with
  | case1 => rw [List.lookup_cons, apart]
  | case2 more => simp only [List.lookup_cons, apart]
  | case3 n more _ _ => rw [List.lookup_cons, apart]
  | case4 n i more _ _ ih => rw [List.lookup_cons, List.lookup_cons, ih]

theorem item?_put_of_ne (ne : other ≠ place) : (d.put place item).item? other = d.item? other := by
  rw [item?, item?, put, lookup_putItem_of_ne ne]

theorem item?_put (some : place ≠ []) : (d.put place item).item? place = .some item := by
  rw [item?, if_neg some, put, lookup_putItem]

theorem file?_put_of_ne (ne : other ≠ place) : (d.put place item).file? other = d.file? other := by
  rw [file?, file?, item?_put_of_ne ne]

theorem ne_nil_of_item? (h : d.item? place ≠ some .folder) : place ≠ [] := by
  rintro rfl
  exact h rfl

/-! ## Folders -/

/-- A folder is created where there is nothing. -/
theorem makeFolder_eq_ok (made : d.makeFolder path = .ok d') :
    ∃ place, d.locate (withoutSlashes path) = .ok place ∧ d.item? place = none ∧
      d' = d.put place .folder := by
  rw [makeFolder] at made
  rcases located : d.locate (withoutSlashes path) with fault | place
  · rw [located] at made
    cases made
  · rw [located] at made
    change (if (d.item? place).isSome = true then _ else _) = _ at made
    split at made
    · cases made
    · next vacant =>
      cases made
      exact ⟨place, rfl, by simpa using vacant, rfl⟩

theorem file?_makeFolder (made : d.makeFolder path = .ok d') : d'.file? = d.file? := by
  obtain ⟨place, -, nothing, rfl⟩ := makeFolder_eq_ok made
  have some : place ≠ [] := ne_nil_of_item? (by rw [nothing]; nofun)
  funext other
  by_cases same : other = place
  · rw [same, file?, file?, item?_put some, nothing]
  · exact file?_put_of_ne same

/-- What holds between disks when a folder is created holds when the missing ones of several are. -/
theorem makeFirst_induction {R : Disk → Disk → Prop} (refl : ∀ d, R d d)
    (trans : ∀ {d₁ d₂ d₃}, R d₁ d₂ → R d₂ d₃ → R d₁ d₃)
    (step : ∀ {d d' path}, d.makeFolder path = .ok d' → R d d') (d : Disk) (paths : List String) :
    R d (d.makeFirst paths).2 := by
  induction paths with
  | nil => exact refl d
  | cons path above ih =>
    rw [makeFirst]
    split
    · exact refl d
    · split
      · next made => exact step made
      · -- The folder above is created first.
        split
        · next failed =>
          rw [failed] at ih
          exact ih
        · next below =>
          rw [below] at ih
          split
          · next made => exact trans ih (step made)
          · exact ih
      · exact refl d

/-! ## Writing -/

theorem withoutSlashes_of_hasSlash (bare : hasSlash path = false) : withoutSlashes path = path := by
  have whole : dropEndWhile (· == '/') path.toList = path.toList := by
    rw [hasSlash, endsIn] at bare
    rw [dropEndWhile]
    rw [← List.head?_reverse] at bare
    have kept : path.toList.reverse.dropWhile (· == '/') = path.toList.reverse := by
      rcases backwards : path.toList.reverse with _ | ⟨c, cs⟩
      · rfl
      · rw [backwards] at bare
        have noSlash : (c == '/') = false := bare
        rw [List.dropWhile_cons, noSlash]
        rfl
    rw [kept, List.reverse_reverse]
  rw [withoutSlashes, whole]
  split
  · rfl
  · exact String.ofList_toList

/-- A file is put where its path leads and no folder is, or nothing is changed. -/
theorem write_cases (d : Disk) (path : String) (content : Content) :
    (∃ fault, d.write path content = (.error fault, d)) ∨
      ∃ place, d.locate path = .ok place ∧ d.item? place ≠ some .folder ∧
        d.write path content = (.ok (), d.put place (.file content)) := by
  rw [write]
  rcases led : d.locate (withoutSlashes path) with fault | place
  · exact .inl ⟨fault, rfl⟩
  by_cases slash : hasSlash path = true
  · -- A slash at the end asks for a folder.
    refine .inl ?_
    rcases holds : d.item? place with _ | old | _ <;> simp [holds, slash]
  · have bare : hasSlash path = false := Bool.not_eq_true _ ▸ slash
    rw [withoutSlashes_of_hasSlash bare] at led
    rcases holds : d.item? place with _ | old | _
    · exact .inr ⟨place, led, by rw [holds]; exact nofun, by simp [holds, bare]⟩
    · exact .inr ⟨place, led, by rw [holds]; exact nofun, by simp [holds, bare]⟩
    · exact .inl ⟨.isAFolder, by simp [holds]⟩

theorem write_eq_error (refused : d.write path content = (.error fault, d')) : d' = d := by
  rcases d.write_cases path content with ⟨fault', same⟩ | ⟨place, -, -, done⟩
  · rw [same] at refused
    cases refused
    rfl
  · rw [done] at refused
    cases refused

/-- Something is put where no folder is, and a path leads where it led before. -/
theorem walk_put (free : d.item? target ≠ some .folder)
    (led : d.walk start pieces = .ok place) :
    (d.put target item).walk start pieces = .ok place := by
  induction pieces generalizing start with
  | nil => exact led
  | cons piece pieces ih =>
    rw [walk] at led ⊢
    by_cases same : start = target
    · subst same
      split at led
      · cases led
      · cases led
      · next folder => exact absurd folder free
    · rw [item?_put_of_ne same]
      split at led
      · cases led
      · cases led
      · simp only at led ⊢
        split at led
        · next idle =>
          rw [if_pos idle]
          exact ih led
        · next busy =>
          rw [if_neg busy]
          split at led
          · next up =>
            rw [if_pos up]
            exact ih led
          · next down =>
            rw [if_neg down]
            split at led
            · cases led
            · next short =>
              rw [if_neg short]
              exact ih led

theorem locate_put (free : d.item? target ≠ some .folder) (led : d.locate path = .ok place) :
    (d.put target item).locate path = .ok place := by
  rw [locate] at led ⊢
  split at led
  · cases led
  · next proper =>
    split at led
    · cases led
    · next some =>
      rw [if_neg proper, if_neg some]
      exact walk_put free led

/-- What is written is in the file that the path leads to, and no other file has changed. -/
theorem write_eq_ok (written : d.write path content = (.ok (), d')) :
    ∃ place, d'.locate path = .ok place ∧ d'.file? place = some content ∧
      ∀ other, other ≠ place → d'.file? other = d.file? other := by
  rcases d.write_cases path content with ⟨fault, same⟩ | ⟨place, led, free, done⟩
  · rw [same] at written
    cases written
  · rw [done] at written
    cases written
    refine ⟨place, locate_put free led, ?_, fun other ne => file?_put_of_ne ne⟩
    rw [file?, item?_put (ne_nil_of_item? free)]

/-! ## Reading -/

/-- A text that is read is that of the file which the path leads to. -/
theorem read_eq_ok_iff {text : String} :
    d.read path = .ok text ↔
      ∃ place, d.locate path = .ok place ∧ d.file? place = some (.text text) := by
  rw [read]
  rcases led : d.locate path with fault | place
  · simp [bind, Except.bind]
  · rcases holds : d.item? place with _ | (text' | octets) | _ <;>
      simp [bind, Except.bind, holds, file?, pure, Except.pure, throw, throwThe,
        MonadExceptOf.throw]

/-- A text that has been written is read back. -/
theorem read_write {text : String} (written : d.write path (.text text) = (.ok (), d')) :
    d'.read path = .ok text := by
  obtain ⟨place, led, holds, -⟩ := write_eq_ok written
  exact read_eq_ok_iff.2 ⟨place, led, holds⟩

end Longform.Disk
