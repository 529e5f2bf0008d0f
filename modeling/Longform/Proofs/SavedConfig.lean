import Longform.Config.File
import Longform.Proofs.Listing
import Longform.Proofs.WrittenTables

/-!
# Configurations that are saved and loaded

What is loaded from where a configuration was saved is this configuration, and
where keys have been removed from the file in the meantime, it has the standard
values for them and nothing else has changed.

* `renderWithout` is the text without some of its keys and `reset` what it is meant to
  say; `renderWithout_nil` and `reset_nil` are the text and the configuration as they
  are.
* `tells_renderWithout`: the text tells the sections and settings that are left.
* `read_renderWithout`: they are read as the configuration that is meant.
* `saveTo_cases`: what saving does to the disk; `read_of_saveTo` and `saveTo_of_large` are
  what that means for a configuration that can be written and for one that cannot.
-/

namespace Longform.Config

open Toml

/-! ## Keys -/

/-- The sections of a configuration. -/
inductive Part where
  | document
  | exporting
  deriving DecidableEq

/-- The settings of a configuration. -/
inductive Setting where
  | documentClass
  | bibliography
  | headerInput
  | template
  | preamble
  | maxEmbedDepth
  deriving DecidableEq

/-- A key of a configuration: that of a section or that of a setting in one. -/
inductive Key where
  | part (p : Part)
  | setting (s : Setting)
  deriving DecidableEq

variable {c : Config} {gone : List Key} {s : Setting} {p : Part}

/-- The header of a section. -/
def Part.name : Part → String
  | .document => "document"
  | .exporting => "export"

/-- The settings of a section in the order in which they are written. -/
def Part.settings : Part → List Setting
  | .document => [.documentClass, .bibliography, .headerInput]
  | .exporting => [.template, .preamble, .maxEmbedDepth]

/-- The key of a setting. -/
def Setting.key : Setting → String
  | .documentClass => "class"
  | .bibliography => "bibliography"
  | .headerInput => "header_input"
  | .template => "template"
  | .preamble => "preamble"
  | .maxEmbedDepth => "max_embed_depth"

/-- A text as a value and how it is written. -/
def textValue (text : String) : Value × String :=
  (.string text, String.ofList (Quoted.encode text.toList))

/-- A count as a value and how it is written. -/
def countValue (n : Nat) : Value × String := (.integer n, toString n)

/-- The value of a setting and how it is written, if it has one. -/
def Setting.written? (c : Config) : Setting → Option (Value × String)
  | .documentClass => some (textValue c.document.documentClass)
  | .bibliography => some (textValue c.document.bibliography)
  | .headerInput => some (textValue c.document.headerInput)
  | .template => c.exporting.template.map textValue
  | .preamble => c.exporting.preamble.map textValue
  | .maxEmbedDepth => c.exporting.maxEmbedDepth.map countValue

/-- The limit of embeds fits into 64 bits with a sign, if there is one. -/
def Fits (c : Config) : Prop := ∀ n ∈ c.exporting.maxEmbedDepth, n < Text.wordSize 63

/-! ## Keys that are removed -/

/-- The value of a setting that has not been removed. -/
def Setting.kept? (gone : List Key) (c : Config) (s : Setting) : Option (Value × String) :=
  if .setting s ∈ gone then none else s.written? c

/-- The text of a section, if it has not been removed. -/
def Part.text (gone : List Key) (c : Config) (p : Part) : String :=
  if .part p ∈ gone then ""
  else sectionText p.name
    (p.settings.filterMap fun s => (s.kept? gone c).map fun (_, text) => settingLine s.key text)

/-- The text of a configuration from which keys have been removed. -/
def renderWithout (gone : List Key) (c : Config) : String :=
  Part.text gone c .document ++ "\n" ++ Part.text gone c .exporting

/-- Settings of documents with the standard values for some of them. -/
def resetDocument (gone : List Key) (d : DocumentSettings) : DocumentSettings where
  documentClass :=
    if .setting .documentClass ∈ gone then standard.document.documentClass else d.documentClass
  bibliography :=
    if .setting .bibliography ∈ gone then standard.document.bibliography else d.bibliography
  headerInput :=
    if .setting .headerInput ∈ gone then standard.document.headerInput else d.headerInput

/-- Settings of exports without the values of some of them. -/
def resetExporting (gone : List Key) (e : ExportSettings) : ExportSettings where
  template := if .setting .template ∈ gone then none else e.template
  preamble := if .setting .preamble ∈ gone then none else e.preamble
  maxEmbedDepth := if .setting .maxEmbedDepth ∈ gone then none else e.maxEmbedDepth

/-- A configuration with the standard values for some of its keys. -/
def reset (gone : List Key) (c : Config) : Config where
  document :=
    if .part .document ∈ gone then standard.document else resetDocument gone c.document
  exporting :=
    if .part .exporting ∈ gone then standard.exporting else resetExporting gone c.exporting

theorem renderWithout_nil (c : Config) : c.renderWithout [] = c.render := by
  obtain ⟨document, template, preamble, maxEmbedDepth⟩ := c
  cases template <;> cases preamble <;> cases maxEmbedDepth <;> rfl

theorem reset_nil (c : Config) : c.reset [] = c := rfl

/-! ## What the text tells -/

/-- The settings that are left of some, as entries of a table. -/
def entries (gone : List Key) (c : Config) (settings : List Setting) : Table :=
  settings.filterMap fun s => (s.kept? gone c).map fun (v, _) => (s.key, v)

/-- A section that has not been removed, with the settings that are left of it. -/
def Part.section? (gone : List Key) (c : Config) (p : Part) : Option (String × Table) :=
  if .part p ∈ gone then none else some (p.name, entries gone c p.settings)

/-- The sections that are left. -/
def sections (gone : List Key) (c : Config) : List (String × Table) :=
  (Part.section? gone c .document).toList ++ (Part.section? gone c .exporting).toList

theorem Setting.isBareKey_key (s : Setting) : isBareKey s.key = true := by
  cases s <;> decide

theorem Part.isBareKey_name (p : Part) : isBareKey p.name = true := by
  cases p <;> decide

/-- Texts can always be written, and counts when they fit into 64 bits with a sign. -/
theorem spells_of_written? {v : Value} {text : String} (fits : c.Fits)
    (written : s.written? c = some (v, text)) : Spells text v := by
  have spells_textValue : ∀ {t}, textValue t = (v, text) → Spells text v := by
    rintro t ⟨⟩
    exact spells_encode t
  cases s with
  | documentClass => exact spells_textValue (Option.some.inj written)
  | bibliography => exact spells_textValue (Option.some.inj written)
  | headerInput => exact spells_textValue (Option.some.inj written)
  | template =>
    obtain ⟨t, -, same⟩ := Option.map_eq_some_iff.1 written
    exact spells_textValue same
  | preamble =>
    obtain ⟨t, -, same⟩ := Option.map_eq_some_iff.1 written
    exact spells_textValue same
  | maxEmbedDepth =>
    obtain ⟨n, some, same⟩ := Option.map_eq_some_iff.1 written
    cases same
    exact spells_toString (fits n some)

theorem tells_settings (fits : c.Fits) (settings : List Setting) :
    Tells (String.join (settings.filterMap fun s =>
        (s.kept? gone c).map fun (_, text) => settingLine s.key text))
      ((entries gone c settings).map fun (key, v) => .setting [] key v) := by
  induction settings with
  | nil => exact .nil
  | cons s settings ih =>
    rcases kept : s.kept? gone c with _ | ⟨v, text⟩
    · rw [entries, List.filterMap_cons_none (by rw [kept]; rfl),
        List.filterMap_cons_none (by rw [kept]; rfl)]
      exact ih
    · have written : s.written? c = some (v, text) := by
        rw [Setting.kept?] at kept
        split at kept
        · cases kept
        · exact kept
      rw [entries, List.filterMap_cons_some (by rw [kept]; rfl),
        List.filterMap_cons_some (by rw [kept]; rfl), String.join_cons]
      exact .setting s.isBareKey_key (spells_of_written? fits written) ih

theorem tells_part (fits : c.Fits) (p : Part) :
    Tells (p.text gone c) ((p.section? gone c).toList.flatMap sectionLines) := by
  rw [Part.text, Part.section?]
  split
  · exact .nil
  · exact .header p.isBareKey_name (by simpa using tells_settings fits p.settings)

/-- The text without some keys tells the others. -/
theorem tells_renderWithout (fits : c.Fits) :
    Tells (c.renderWithout gone) ((sections gone c).flatMap sectionLines) := by
  rw [renderWithout, sections, List.flatMap_append, String.append_assoc]
  exact (tells_part fits .document).append (.blank (tells_part fits .exporting))

/-! ## What is read -/

theorem Setting.key_injective {s t : Setting} (same : s.key = t.key) : s = t := by
  cases s <;> cases t <;> first | rfl | exact absurd same (by decide)

theorem entries_cons (s : Setting) (settings : List Setting) :
    entries gone c (s :: settings) =
      ((s.kept? gone c).map fun (v, _) => (s.key, v)).toList ++ entries gone c settings := by
  rw [entries, List.filterMap_cons]
  cases s.kept? gone c <;> rfl

theorem map_fst_entries_sublist (settings : List Setting) :
    ((entries gone c settings).map Prod.fst).Sublist (settings.map Setting.key) := by
  induction settings with
  | nil => exact .slnil
  | cons s settings ih =>
    rw [entries_cons, List.map_append, List.map_cons]
    cases s.kept? gone c with
    | none => exact ih.cons _
    | some => exact ih.cons_cons _

/-- A key has the value that was kept for it. -/
theorem lookup_entries (s : Setting) (settings : List Setting) :
    (entries gone c settings).lookup s.key =
      if s ∈ settings then (s.kept? gone c).map Prod.fst else none := by
  induction settings with
  | nil => rfl
  | cons t settings ih =>
    rw [entries_cons, List.lookup_append, ih]
    -- Another setting has another key, so that its value is not found for this one.
    by_cases same : s = t
    · subst same
      rw [if_pos (List.mem_cons_self ..)]
      cases s.kept? gone c with
      | none => simp
      | some => simp
    · have other : (s.key == t.key) = false := beq_eq_false_iff_ne.2 (same ∘ Setting.key_injective)
      have elsewhere : s ∈ t :: settings ↔ s ∈ settings := by rw [List.mem_cons, or_iff_right same]
      simp only [elsewhere]
      cases t.kept? gone c with
      | none => rfl
      | some => simp [List.lookup_cons, other]

/-- A setting is read as what it was written for, when its reader undoes that. -/
theorem lookup?_entries {α : Type} {read : String → Value → Except ConfigFault α}
    {write : α → Value × String} {x? : Option α} (gone : List Key)
    (undone : ∀ x, read s.key (write x).1 = .ok x) (mem : s ∈ p.settings)
    (written : s.written? c = x?.map write) :
    lookup? read s.key (entries gone c p.settings) =
      .ok (if .setting s ∈ gone then none else x?) := by
  rw [lookup?, lookup_entries, if_pos mem, Setting.kept?, written]
  by_cases removed : Key.setting s ∈ gone
  · rw [if_pos removed, if_pos removed]
    rfl
  · rw [if_neg removed, if_neg removed]
    cases x? with
    | none => rfl
    | some x => exact congrArg (Except.map some) (undone x)

theorem lookupD_text {text : String} (gone : List Key) (standard : String) (mem : s ∈ p.settings)
    (written : s.written? c = some (textValue text)) :
    lookupD asText s.key (entries gone c p.settings) standard =
      .ok (if .setting s ∈ gone then standard else text) := by
  have some : s.written? c = (some text).map textValue := written
  rw [lookupD, lookup?_entries gone (fun _ => rfl) mem some]
  split <;> rfl

theorem readDocument_entries (gone : List Key) (c : Config) :
    readDocument "document" (.table .headed (entries gone c Part.document.settings)) =
      .ok (resetDocument gone c.document) := by
  have documentClass : lookupD asText "class" _ _ = _ :=
    lookupD_text (s := .documentClass) (p := .document) (c := c) gone
      standard.document.documentClass (by decide) rfl
  have bibliography : lookupD asText "bibliography" _ _ = _ :=
    lookupD_text (s := .bibliography) (p := .document) (c := c) gone
      standard.document.bibliography (by decide) rfl
  have headerInput : lookupD asText "header_input" _ _ = _ :=
    lookupD_text (s := .headerInput) (p := .document) (c := c) gone
      standard.document.headerInput (by decide) rfl
  simp only [readDocument, asSection, bind, Except.bind, documentClass, bibliography, headerInput]
  rfl

theorem readExporting_entries (gone : List Key) (c : Config) :
    readExporting "export" (.table .headed (entries gone c Part.exporting.settings)) =
      .ok (resetExporting gone c.exporting) := by
  have template : lookup? asText "template" _ = _ :=
    lookup?_entries (s := .template) (p := .exporting) (c := c) gone (fun _ => rfl) (by decide) rfl
  have preamble : lookup? asText "preamble" _ = _ :=
    lookup?_entries (s := .preamble) (p := .exporting) (c := c) gone (fun _ => rfl) (by decide) rfl
  have maxEmbedDepth : lookup? asCount "max_embed_depth" _ = _ :=
    lookup?_entries (s := .maxEmbedDepth) (p := .exporting) (c := c) gone (fun _ => rfl)
      (by decide) rfl
  simp only [readExporting, asSection, bind, Except.bind, template, preamble, maxEmbedDepth]
  rfl

/-- A section is there unless it was removed. -/
theorem lookup_sections (gone : List Key) (c : Config) (p : Part) :
    (ofSections (sections gone c)).lookup p.name =
      if .part p ∈ gone then none else some (.table .headed (entries gone c p.settings)) := by
  by_cases noDocument : Key.part .document ∈ gone <;>
    by_cases noExporting : Key.part .exporting ∈ gone <;> cases p <;>
    simp [sections, Part.section?, ofSections, Part.name, noDocument, noExporting, List.lookup_cons]

theorem lookupD_section {α : Type} {read : String → Value → Except ConfigFault α} {x : α}
    (standard : α) (whole : read p.name (.table .headed (entries gone c p.settings)) = .ok x) :
    lookupD read p.name (ofSections (sections gone c)) standard =
      .ok (if .part p ∈ gone then standard else x) := by
  rw [lookupD, lookup?, lookup_sections]
  by_cases removed : Key.part p ∈ gone
  · rw [if_pos removed, if_pos removed]
    rfl
  · rw [if_neg removed, if_neg removed]
    simp only [whole]
    rfl

theorem ofTable_sections (gone : List Key) (c : Config) :
    ofTable (ofSections (sections gone c)) = .ok (c.reset gone) := by
  have document : lookupD readDocument "document" _ _ = _ :=
    lookupD_section (p := .document) standard.document (readDocument_entries gone c)
  have exporting : lookupD readExporting "export" _ _ = _ :=
    lookupD_section (p := .exporting) standard.exporting (readExporting_entries gone c)
  rw [ofTable, document, exporting]
  rfl

theorem nodup_names (gone : List Key) (c : Config) : ((sections gone c).map Prod.fst).Nodup := by
  rw [sections, Part.section?, Part.section?]
  split <;> split <;> simp [Part.name]

theorem nodup_keys (gone : List Key) (c : Config) :
    ∀ e ∈ sections gone c, (e.2.map Prod.fst).Nodup := by
  have apart : ∀ p, ∀ e ∈ (Part.section? gone c p).toList, (e.2.map Prod.fst).Nodup := by
    intro p e mem
    have some := Option.mem_toList.1 mem
    rw [Part.section?] at some
    split at some
    · cases some
    · cases some
      exact (map_fst_entries_sublist p.settings).nodup (by cases p <;> decide)
  rw [sections, List.forall_mem_append]
  exact ⟨apart .document, apart .exporting⟩

/-- The text without some keys is read as the configuration with the standard values for them. -/
theorem read_renderWithout (fits : c.Fits) (gone : List Key) :
    read (c.renderWithout gone) = .ok (c.reset gone) := by
  rw [read, read_of_tells (tells_renderWithout fits) (nodup_names gone c) (nodup_keys gone c)]
  exact ofTable_sections gone c

/-! ## Files -/

variable {path : String} {disk : Disk}

theorem write_eq_ok (fits : c.Fits) : c.write = .ok c.render := by
  refine if_neg ?_
  rcases limit : c.exporting.maxEmbedDepth with _ | n
  · exact Bool.false_ne_true
  · rw [Option.any_some, decide_eq_true_eq, Nat.not_le]
    exact fits n limit

theorem write_of_large (large : ∃ n ∈ c.exporting.maxEmbedDepth, Text.wordSize 63 ≤ n) :
    c.write = .error (.unrepresentable "number out of range") := by
  obtain ⟨n, limit, out⟩ := large
  refine if_pos ?_
  rw [Option.mem_def.1 limit, Option.any_some, decide_eq_true_eq]
  exact out

/-- Saving makes folders first. Then it writes the text, if there is one. -/
theorem saveTo_cases (c : Config) (path : String) (disk : Disk) :
    (∃ fault disk', c.saveTo path disk = (.error fault, disk') ∧ disk.Grows disk') ∨
      ∃ text disk', c.write = .ok text ∧ disk.Grows disk' ∧
        c.saveTo path disk = ((disk'.write path (.text text)).1.mapError .unwritable,
          (disk'.write path (.text text)).2) := by
  rw [saveTo]
  rcases Path.parent? path with _ | folder
  · exact .inl ⟨_, disk, rfl, .refl disk⟩
  have grows := disk.grows_makeFolders folder
  rcases made : disk.makeFolders folder with ⟨fault | ⟨⟩, disk'⟩
  · rw [made] at grows
    exact .inl ⟨.noFolder fault, disk', by simp only [made], grows⟩
  · rw [made] at grows
    rcases written : c.write with fault | text
    · exact .inl ⟨fault, disk', by simp only [made], grows⟩
    · exact .inr ⟨text, disk', rfl, grows, by simp only [made]⟩

/-- A configuration that has been saved is in its file. -/
theorem read_of_saveTo (fits : c.Fits) (saved : (c.saveTo path disk).1 = .ok ()) :
    (c.saveTo path disk).2.read path = .ok c.render := by
  rcases saveTo_cases c path disk with ⟨fault, disk', same, -⟩ | ⟨text, disk', written, -, same⟩
  · rw [same] at saved
    cases saved
  · rw [write_eq_ok fits] at written
    cases written
    rw [same] at saved ⊢
    rcases done : disk'.write path (.text c.render) with ⟨fault | ⟨⟩, after⟩
    · rw [done] at saved
      cases saved
    · exact Disk.read_write done

/-- A configuration that cannot be written is refused before any file is touched. -/
theorem saveTo_of_large (large : ∃ n ∈ c.exporting.maxEmbedDepth, Text.wordSize 63 ≤ n)
    (path : String) (disk : Disk) :
    (∃ fault, (c.saveTo path disk).1 = .error fault) ∧ disk.Grows (c.saveTo path disk).2 := by
  rcases saveTo_cases c path disk with ⟨fault, disk', same, grows⟩ | ⟨text, disk', written, -⟩
  · rw [same]
    exact ⟨⟨fault, rfl⟩, grows⟩
  · rw [write_of_large large] at written
    cases written

/-- A configuration whose limit of embeds fits into 64 bits with a sign is loaded from where it was
saved, and with the standard values for the keys that are then removed from the file. One with a
larger limit is not saved, and every file holds what it held before. -/
theorem loadFrom_saveTo (c : Config) (path : String) (disk : Disk) :
    ((∀ n ∈ c.exporting.maxEmbedDepth, n < Text.wordSize 63) →
      ((c.saveTo path disk).1 = .ok () →
        (c.saveTo path disk).2.read path = .ok (c.renderWithout []) ∧
          loadFrom path (c.saveTo path disk).2 = .ok c) ∧
      ∀ gone later, Disk.read later path = .ok (c.renderWithout gone) →
        loadFrom path later = .ok (c.reset gone)) ∧
    ((∃ n ∈ c.exporting.maxEmbedDepth, Text.wordSize 63 ≤ n) →
      (∃ fault, (c.saveTo path disk).1 = .error fault) ∧
        (c.saveTo path disk).2.file? = disk.file? ∧
        ∀ text, disk.read path = .ok text → (c.saveTo path disk).2.read path = .ok text) := by
  constructor
  · intro fits
    have loaded : ∀ gone later, Disk.read later path = .ok (c.renderWithout gone) →
        loadFrom path later = .ok (c.reset gone) := by
      intro gone later holds
      rw [loadFrom, holds]
      exact read_renderWithout fits gone
    refine ⟨fun saved => ?_, loaded⟩
    have holds := read_of_saveTo fits saved
    rw [← renderWithout_nil] at holds
    have whole := loaded [] _ holds
    rw [reset_nil] at whole
    exact ⟨holds, whole⟩
  · intro large
    obtain ⟨refused, grows⟩ := saveTo_of_large large path disk
    refine ⟨refused, grows.files, fun text holds => ?_⟩
    obtain ⟨place, led, file⟩ := Disk.read_eq_ok_iff.1 holds
    exact Disk.read_eq_ok_iff.2 ⟨place, grows.led led, by rw [grows.files, file]⟩

/-- Texts in three of the four styles are loaded again, also when a key has been removed, and a
limit that is too large by one leaves the file that was there. -/
theorem loadFrom_saveTo_quotes :
    let c : Config := ⟨⟨"it's \"so\"\n", "", "\x01\\"⟩, ⟨some "\"", none, some 3⟩⟩
    let beyond : Config := ⟨c.document, ⟨none, none, some (Text.wordSize 63)⟩⟩
    let old : Disk := ⟨[(["c.toml"], .file (.text "old"))], []⟩
    let edited : Disk :=
      ⟨[(["c.toml"], .file (.text (c.renderWithout [.setting .headerInput])))], []⟩
    (c.saveTo "/c.toml" old).1 = .ok () ∧ loadFrom "/c.toml" (c.saveTo "/c.toml" old).2 = .ok c ∧
      loadFrom "/c.toml" edited =
        .ok ⟨⟨"it's \"so\"\n", "", "header"⟩, ⟨some "\"", none, some 3⟩⟩ ∧
      (beyond.saveTo "/c.toml" old).2.read "/c.toml" = .ok "old" := by
  intro c beyond old edited
  have saved : (c.saveTo "/c.toml" old).1 = .ok () := rfl
  have fits : ∀ n ∈ c.exporting.maxEmbedDepth, n < Text.wordSize 63 := by
    rintro n ⟨⟩
    decide
  obtain ⟨loaded, without⟩ := (loadFrom_saveTo c "/c.toml" old).1 fits
  obtain ⟨-, -, kept⟩ :=
    (loadFrom_saveTo beyond "/c.toml" old).2 ⟨Text.wordSize 63, rfl, Nat.le_refl _⟩
  exact ⟨saved, (loaded saved).2, without [.setting .headerInput] edited rfl, kept "old" rfl⟩

end Longform.Config
