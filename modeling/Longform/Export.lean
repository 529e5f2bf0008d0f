import Longform.Sections
import Longform.Latex.Render
import Longform.Template

/-!
# Exports

What can be asked for: the manuscript of a note (`Export.assemble`), a note
written to a file (`Export.file`), and a selection of a note put on the clipboard
(`Export.selection`). An export that fails has written nothing.
-/

namespace Longform

/-- Where a selection is put. -/
inductive Clipboard where
  /-- A clipboard that takes every text, and the last text it took. -/
  | open_ (contents : Option String)
  /-- A clipboard that refuses every text for the given reason. -/
  | refusing (reason : String)
  deriving DecidableEq

/-- The state in which exports run. -/
structure Session (σ : Type) where
  store : σ
  /-- The warnings so far, in order. -/
  warnings : List String
  /-- The notices so far, in order. -/
  notices : List String
  clipboard : Clipboard

/-- What is to be exported to a file, with paths relative to the vault. -/
structure ExportRequest where
  template : Option String
  /-- Only the file name of the preamble is used. -/
  preamble : Option String
  /-- Without an output the note's path with the extension `tex` is written. -/
  output : Option String
  options : ExportOptions

/-- The regions of a note, resolved. -/
structure Regions where
  abstractPart : Option Resolved
  body : Resolved
  appendix : Option Resolved

namespace Regions

/-- What a region refers to, if there is one. -/
def referencesOf (part : Option Resolved) : References := (part.map Resolved.references).getD .empty

/-- What the regions refer to, in the order of an export. -/
def references (parts : Regions) : References :=
  referencesOf parts.abstractPart ++ parts.body.references ++ referencesOf parts.appendix

/-- The regions, rendered. -/
def manuscript (parts : Regions) (frontMatter : FrontMatter) : Manuscript where
  frontMatter
  abstractText := parts.abstractPart.map fun part => Latex.render part.nodes
  body := Latex.render parts.body.nodes
  appendix := parts.appendix.map fun part => Latex.render part.nodes
  references := parts.references

end Regions

/-- A step of an export. It has no answer when embeds go round in a circle without a limit. -/
abbrev Export (σ : Type) := Action (Session σ)

namespace Export

variable {σ : Type} [Store σ]

/-! ## The store -/

def findNote (address : String) : Export σ (Option Document) := do
  let s ← get
  let (lookup, store) := Store.find address s.store
  set { s with store, warnings := s.warnings ++ lookup.warnings }
  return lookup.found

def readText (d : Document) : Export σ String := do
  let s ← get
  let (text, store) := Store.read d s.store
  set { s with store }
  MonadExcept.ofExcept text

def writeText (d : Document) (text : String) : Export σ Unit := do
  let s ← get
  let (done, store) := Store.write d text s.store
  set { s with store }
  MonadExcept.ofExcept done

/-! ## Manuscripts -/

/-- A resolver in the state of an export. -/
def resolver (s : Session σ) (cache : Cache) (frames : List Frame) (limit : Option Nat) :
    Resolver σ :=
  ⟨s.store, cache, s.warnings, frames, limit, 0⟩

/-- The state of an export after a resolver has ended. -/
def resolved (s : Session σ) (r : Resolver σ) : Session σ :=
  { s with store := r.store, warnings := r.warnings }

/-- Takes a resolving step with the given notes known and headings open. -/
def resolving {α : Type} (step : Resolver.Step σ α) (cache : Cache) (frames : List Frame)
    (limit : Option Nat) : Export σ (α × Cache) := ExceptT.mk fun s => do
  let (outcome, r) ← step.on (resolver s cache frames limit)
  return (outcome.map (·, r.cache), resolved s r)

/-- Resolves a region below a heading. -/
def region (limit : Option Nat) (frame : Option Frame) (nodes : List Node) (cache : Cache) :
    Export σ (Resolved × Cache) :=
  resolving (Resolver.unroll nodes) cache frame.toList limit

/-- The frame of a heading. -/
def frameOf (h : Heading) : Frame := ⟨h.plainTitle, h.level⟩

/-- Resolves the blocks that a heading owns, if there is such a heading. -/
def headingRegion (limit : Option Nat) (h : Option Heading) (cache : Cache) :
    Export σ (Option Resolved × Cache) :=
  match h with
  | none => return (none, cache)
  | some h => do
    let (part, cache) ← region limit (some (frameOf h)) h.children cache
    return (some part, cache)

/-- Resolves the regions of a note one after another. What one region has read is known to the
next. -/
def regions (limit : Option Nat) (sections : Sections) (cache : Cache) : Export σ Regions := do
  let (abstractPart, cache) ← headingRegion limit sections.abstractHeading cache
  let (body, cache) ← region limit (sections.bodyHeading.map frameOf) sections.body cache
  let (appendix, _) ← headingRegion limit sections.appendixHeading cache
  return ⟨abstractPart, body, appendix⟩

/-- The text that is exported: a selection, or else what the root note holds. -/
def rootText (root : Document) (selection : Option String) : Export σ String :=
  match selection with
  | some text => return text
  | none => readText root

/-- The note that is exported. -/
def rootNote (root : Document) (selection : Option String) : Export σ Note := do
  MonadExcept.ofExcept (Note.parse (← rootText root selection))

/-- The manuscript of a note. With a selection, that text is exported instead of what the note
holds; embeds of the note itself still mean the text that is exported. -/
def assemble (root : Document) (selection : Option String) (options : ExportOptions) :
    Export σ Manuscript := do
  let note ← rootNote root selection
  let cache := Cache.empty.add root.basename note
  let parts ← regions options.maxEmbedDepth (Sections.classify note.body) cache
  return parts.manuscript note.frontMatter

/-! ## Files -/

/-- Fills a template with a manuscript and writes the result. -/
def writeFilled (template : Document) (m : Manuscript) (output : Document) : Export σ Unit := do
  writeText output (Template.fill (← readText template) m)

/-- Writes a manuscript as a document of its own. -/
def writeStandalone (m : Manuscript) (output : Document) (preamble : Option Document)
    (options : ExportOptions) : Export σ Unit :=
  writeText output (m.standalone (preamble.map Document.name) options)

/-- Where the export of a note is written. -/
def outputOf (request : ExportRequest) (root : Document) : Document :=
  ⟨request.output.getD (Path.withExtension root.path "tex")⟩

/-- Exports the note that an address names to a file. -/
def file (address : String) (request : ExportRequest) : Export σ (Document × Manuscript) := do
  match ← findNote address with
  | none => throw (.notFound address)
  | some root =>
    let output := outputOf request root
    let m ← assemble root none request.options
    match request.template with
    | some template => writeFilled ⟨template⟩ m output
    | none => writeStandalone m output (request.preamble.map Document.mk) request.options
    return (output, m)

/-! ## Selections -/

/-- Puts a text on the clipboard. -/
def copy (text : String) : Export σ Unit := do
  match (← get).clipboard with
  | .refusing reason => throw (.clipboard reason)
  | .open_ _ => modify fun s => { s with clipboard := .open_ (some text) }

/-- Exports a selection of a note to the clipboard. -/
def selection (root : Document) (text : String) (options : ExportOptions) : Export σ String := do
  let m ← assemble root (some text) options
  copy m.joined
  modify fun s => { s with notices := s.notices ++ ["Latex content copied to clipboard"] }
  return m.joined

end Export

end Longform
