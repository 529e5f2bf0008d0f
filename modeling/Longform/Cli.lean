import Longform.Cli.Arguments
import Longform.Config.File
import Longform.Export
import Longform.Json
import Longform.Store.Vault
import Longform.Text.Base64

/-!
# The command line program

What a command line does to a disk and what it shows (`Cli.execute`). Results go to
the output; warnings, notices and failures go beside it, and so does the sequence
that makes a terminal copy a text.
-/

namespace Longform.Cli

/-! ## Failures -/

/-- A failure and what led to it, the outermost message first. -/
structure Failure where
  message : String
  causes : List String
  deriving DecidableEq

namespace Failure

/-- The failure of an operation. A refusal of the file system is told twice: as what failed, and as
its cause. -/
def ofError (e : Error) : Failure :=
  match e with
  | .disk fault => ⟨e.message, [fault.message]⟩
  | e => ⟨e.message, []⟩

/-- A failure that was met in doing something. -/
def within (doing : String) (f : Failure) : Failure := ⟨doing, f.message :: f.causes⟩

/-- Puts blanks before each line but the first. -/
def hang (width : Nat) (text : String) : String :=
  String.ofList (text.toList.flatMap fun c =>
    if c = '\n' then c :: List.replicate width ' ' else [c])

/-- The causes, which are numbered if there are several. -/
def causeLines (causes : List String) : List String :=
  match causes with
  | [cause] => ["    " ++ hang 4 cause]
  | causes => causes.zipIdx.map fun (cause, n) =>
      let number := toString n
      String.ofList (List.replicate (5 - number.length) ' ') ++ number ++ ": " ++ hang 7 cause

/-- The text of a failure. -/
def render (f : Failure) : String :=
  "Error: " ++ f.message ++
    (if f.causes = [] then ""
     else "\n\nCaused by:\n" ++ String.intercalate "\n" (causeLines f.causes)) ++ "\n"

end Failure

/-! ## Runs -/

/-- A step of a run. It has no answer when embeds go round in a circle without a limit. -/
abbrev Step := ExceptT Failure (StateT (Session Vault) Option)

/-- Takes a step of an export in a run, where it may fail in doing something. -/
def Step.ofExport {α : Type} (doing : Option String) (e : Export Vault α) : Step α :=
  ExceptT.adapt (fun error => doing.elim (Failure.ofError error) (Failure.ofError error).within) e

/-- What a run shows and what it leaves on the disk. -/
structure Outcome where
  /-- Zero when all went well, two for a command line that is not well formed. -/
  code : Nat
  output : String
  messages : String
  disk : Disk

/-- What an export asks for: what the command line says, and the configuration where that says
nothing. -/
def requestOf (config : Config) (template : Option String) (noTemplate : Bool)
    (preamble output : Option String) : ExportRequest where
  template := if noTemplate then none else template.or config.exporting.template
  preamble := preamble.or config.exporting.preamble
  output := output
  options := config.options

/-- The summary of an export for other programs. -/
def summary (vault : String) (output : Document) (m : Manuscript) : Json.Value :=
  .object [("output", .string (Path.join vault output.path)),
    ("mediaFiles", .array (m.references.mediaFiles.map fun d => .string d.path)),
    ("bibKeys", .array (m.references.citations.map .string))]

/-- Exports a note and says what is to be shown. -/
def exporting (vault note : String) (request : ExportRequest) (json quiet : Bool) :
    Step String := do
  let (output, m) ←
    Step.ofExport (some ("Failed to export '" ++ note ++ "'")) (Export.file note request)
  if json then return (summary vault output m).render ++ "\n"
  else if quiet then return ""
  else return "✓ Exported " ++ note ++ " to " ++ Path.join vault output.path ++ "\n"

/-- Reads the selection from a file, or from what the program is given. -/
def readSelection (input : Option String) (given : String) : Step String := do
  match input with
  | none => return given
  | some path =>
    match (← get).store.disk.read path with
    | .ok text => return text
    | .error fault => throw ⟨"Failed to read selection from " ++ path, [fault.message]⟩

/-- Exports a selection of a note and says what is to be shown. -/
def selecting (note : String) (input : Option String) (stdout : Bool) (options : ExportOptions)
    (given : String) : Step String := do
  match ← Step.ofExport none (Export.findNote note) with
  | none => throw ⟨"File not found: " ++ note, []⟩
  | some root =>
    let text ← readSelection input given
    if stdout then
      return (← Step.ofExport none (Export.assemble root (some text) options)).joined
    else
      let _ ← Step.ofExport none (Export.selection root text options)
      return ""

/-- Shows a configuration. -/
def showing (config : Config) : Step String :=
  match config.write with
  | .ok text => return text
  | .error fault => throw (.ofError (.config fault))

/-- Does what a command line asks for and says what is to be shown. -/
def perform (a : Arguments) (config : Config) (given : String) : Step String :=
  match a.command with
  | .exporting note template noTemplate preamble output json =>
    exporting a.vault note (requestOf config template noTemplate preamble output) json a.quiet
  | .selecting note input stdout => selecting note input stdout config.options given
  | .showing => showing config

/-! ## What is shown -/

/-- Makes a terminal copy a text. -/
def copySequence (text : String) : String :=
  "\x1b]52;c;" ++ String.ofList (Text.Base64.encode text.toUTF8.toList) ++ "\x07"

/-- What is shown beside the output: warnings, the text that is copied and notices. -/
def messages (s : Session Vault) (quiet : Bool) : String :=
  let lines (label : String) (texts : List String) : String :=
    if quiet then "" else String.join (texts.map fun text => label ++ " " ++ text ++ "\n")
  let copied := match s.clipboard with
    | .open_ (some text) => copySequence text
    | _ => ""
  lines "Warning:" s.warnings ++ copied ++ lines "✓" s.notices

/-- The configuration of a run. -/
def configure (a : Arguments) (e : Environment) (disk : Disk) : Except Failure Config :=
  match a.config with
  | some path =>
    (Config.loadFrom path disk).mapError fun fault =>
      (Failure.ofError (.config fault)).within ("Failed to load config from " ++ path)
  | none =>
    (Config.load e disk).mapError fun fault =>
      (Failure.ofError (.config fault)).within "Failed to load config"

/-- A run with well-formed arguments. -/
def run (a : Arguments) (e : Environment) (given : String) (disk : Disk) : Option Outcome :=
  match configure a e disk with
  | .error f => some ⟨1, "", f.render, disk⟩
  | .ok config => do
    let start : Session Vault := ⟨Vault.atFolder a.vault disk, [], [], .open_ none⟩
    match ← (perform a config given).run.run start with
    | (.ok output, s) => return ⟨0, output, messages s a.quiet, s.store.disk⟩
    | (.error f, s) => return ⟨1, "", messages s a.quiet ++ f.render, s.store.disk⟩

/-- How the program is used. -/
def usage : String := "Usage: longtex [OPTIONS] <COMMAND>\n"

/-- A run of the program with a command line, an environment and what it is given to read. -/
def execute (args : List String) (e : Environment) (given : String) (disk : Disk) :
    Option Outcome :=
  match readLine e.configFile args with
  | .error .misuse => some ⟨2, "", usage, disk⟩
  | .error .version => some ⟨0, "longtex 0.4.0\n", "", disk⟩
  | .error .help => some ⟨0, usage, "", disk⟩
  | .ok a => run a e given disk

end Longform.Cli
