import Longform.Error
import Longform.Manuscript
import Longform.Toml.Line

/-!
# Configurations

What is used where the command line says nothing else. A configuration is kept as
a TOML text with two sections. Settings that the text leaves out have their
standard values, and keys that mean nothing here are passed over.

* `Config.read` reads a configuration.
* `Config.write` writes one, with every setting that has a value.
-/

namespace Longform

/-- The settings of documents that stand on their own. -/
structure DocumentSettings where
  documentClass : String
  bibliography : String
  headerInput : String
  deriving DecidableEq

/-- The settings of exports. Those without a value are left to the program. -/
structure ExportSettings where
  template : Option String
  preamble : Option String
  maxEmbedDepth : Option Nat
  deriving DecidableEq

/-- A configuration. -/
structure Config where
  document : DocumentSettings
  exporting : ExportSettings
  deriving DecidableEq

namespace Config

open Toml

/-- The configuration where nothing else is asked for. -/
def standard : Config where
  document := ⟨ExportOptions.standard.documentClass, ExportOptions.standard.bibliography,
    ExportOptions.standard.headerInput⟩
  exporting := ⟨none, none, none⟩

/-- The options of an export with this configuration. -/
def options (c : Config) : ExportOptions :=
  ⟨c.document.documentClass, c.document.bibliography, c.document.headerInput,
    c.exporting.maxEmbedDepth⟩

/-! ## Reading -/

/-- Reads a setting that is text. -/
def asText (key : String) : Value → Except ConfigFault String
  | .string text => .ok text
  | _ => .error (.malformed ("not a string: " ++ key))

/-- Reads a setting that is a count. -/
def asCount (key : String) : Value → Except ConfigFault Nat
  | .integer (.ofNat n) => .ok n
  | _ => .error (.malformed ("not a count: " ++ key))

/-- Reads a section, which is a table or an array of its settings in the order of `keys`. -/
def asSection (name : String) (keys : List String) : Value → Except ConfigFault Table
  | .table _ entries => .ok entries
  | .array items => .ok (keys.zip items)
  | .tables items => .ok (keys.zip (items.map (.table .headed)))
  | _ => .error (.malformed ("not a section: " ++ name))

/-- Reads the value of a key, if it has one. -/
def lookup? {α : Type} (read : String → Value → Except ConfigFault α) (key : String) (t : Table) :
    Except ConfigFault (Option α) :=
  match t.lookup key with
  | none => .ok none
  | some v => (read key v).map some

/-- The value of a key, or `standard` where it has none. -/
def lookupD {α : Type} (read : String → Value → Except ConfigFault α) (key : String) (t : Table)
    (standard : α) : Except ConfigFault α := do
  return (← lookup? read key t).getD standard

/-- The keys of the settings of documents. -/
def documentKeys : List String := ["class", "bibliography", "header_input"]

/-- The keys of the settings of exports. -/
def exportKeys : List String := ["template", "preamble", "max_embed_depth"]

/-- Reads the settings of documents. -/
def readDocument (name : String) (v : Value) : Except ConfigFault DocumentSettings := do
  let t ← asSection name documentKeys v
  let d := standard.document
  return {
    documentClass := ← lookupD asText "class" t d.documentClass
    bibliography := ← lookupD asText "bibliography" t d.bibliography
    headerInput := ← lookupD asText "header_input" t d.headerInput }

/-- Reads the settings of exports. -/
def readExporting (name : String) (v : Value) : Except ConfigFault ExportSettings := do
  let t ← asSection name exportKeys v
  return {
    template := ← lookup? asText "template" t
    preamble := ← lookup? asText "preamble" t
    maxEmbedDepth := ← lookup? asCount "max_embed_depth" t }

/-- The configuration that a table describes. -/
def ofTable (t : Table) : Except ConfigFault Config := do
  return {
    document := ← lookupD readDocument "document" t standard.document
    exporting := ← lookupD readExporting "export" t standard.exporting }

/-- Reads a configuration. -/
def read (text : String) : Except ConfigFault Config :=
  match Toml.read text with
  | .error fault => .error (.malformed fault.message)
  | .ok t => ofTable t

/-! ## Writing -/

/-- A setting on a line of its own. -/
def settingLine (key value : String) : String := key ++ " = " ++ value ++ "\n"

/-- A setting that is text. -/
def textLine (key text : String) : String :=
  settingLine key (String.ofList (Quoted.encode text.toList))

/-- A section: its header and its lines. -/
def sectionText (name : String) (lines : List String) : String :=
  "[" ++ name ++ "]\n" ++ String.join lines

/-- The lines of the settings of documents. -/
def documentLines (d : DocumentSettings) : List String :=
  [textLine "class" d.documentClass, textLine "bibliography" d.bibliography,
    textLine "header_input" d.headerInput]

/-- The lines of the settings of exports that have a value. -/
def exportLines (e : ExportSettings) : List String :=
  (e.template.map (textLine "template")).toList ++ (e.preamble.map (textLine "preamble")).toList
    ++ (e.maxEmbedDepth.map fun n => settingLine "max_embed_depth" (toString n)).toList

/-- The text of a configuration. -/
def render (c : Config) : String :=
  sectionText "document" (documentLines c.document) ++ "\n"
    ++ sectionText "export" (exportLines c.exporting)

/-- Writes a configuration. Its numbers must fit into 64 bits with a sign, as all numbers of TOML
must. -/
def write (c : Config) : Except ConfigFault String :=
  if c.exporting.maxEmbedDepth.any (Text.wordSize 63 ≤ ·) then
    .error (.unrepresentable "number out of range")
  else .ok c.render

end Config

end Longform
