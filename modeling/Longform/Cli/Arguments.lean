import Longform.Text.Basic

/-!
# Command line arguments

A command line is read on two levels: first the options before the name of a
command, then what follows that name. Options that every command knows may stand
on either level, and the inner one counts. Each option is given at most once on a
level.

`readLine` says what the program is asked to do, if the command line is well
formed.
-/

namespace Longform.Cli

open Text

/-! ## Options -/

/-- An option without a value. -/
inductive Switch where
  | verbose
  | quiet
  | noColor
  | noTemplate
  | json
  | stdout
  | version
  | help
  deriving DecidableEq

/-- An option with a value, which is a path. -/
inductive Setting where
  | config
  | vault
  | template
  | preamble
  | output
  | input
  deriving DecidableEq

/-- A level of the command line: before the name of a command or after it. -/
inductive Level where
  | program
  | exporting
  | selecting
  | showing
  deriving DecidableEq

/-- The switches of a level with their long names and their letters. -/
def Level.switches (level : Level) : List (String × Option Char × Switch) :=
  [("verbose", some 'v', .verbose), ("quiet", some 'q', .quiet), ("no-color", none, .noColor),
    ("help", some 'h', .help)] ++
  match level with
  | .program => [("version", some 'V', .version)]
  | .exporting => [("no-template", none, .noTemplate), ("json", none, .json)]
  | .selecting => [("stdout", none, .stdout)]
  | .showing => []

/-- The settings of a level with their long names and their letters. -/
def Level.settings (level : Level) : List (String × Option Char × Setting) :=
  [("config", none, .config), ("vault", none, .vault)] ++
  match level with
  | .exporting =>
    [("template", none, .template), ("preamble", none, .preamble), ("output", some 'o', .output)]
  | .selecting => [("input", some 'i', .input)]
  | _ => []

/-- Whether a level names a note. -/
def Level.takesNote : Level → Bool
  | .exporting => true
  | .selecting => true
  | _ => false

/-- The level that a command opens. -/
def Level.ofCommand? : String → Option Level
  | "export" => some .exporting
  | "selection" => some .selecting
  | "config" => some .showing
  | _ => none

/-- Why a command line asks for no command. -/
inductive Refusal where
  /-- It is not well formed. -/
  | misuse
  /-- It asks for the version of the program. -/
  | version
  /-- It asks how the program is used. -/
  | help
  deriving DecidableEq

/-! ## Levels -/

/-- What has been given on a level. -/
structure Given where
  switches : List Switch
  settings : List (Setting × String)
  note : Option String
  deriving DecidableEq

namespace Given

/-- Nothing yet. -/
def nothing : Given := ⟨[], [], none⟩

def has (g : Given) (s : Switch) : Bool := g.switches.contains s

def value? (g : Given) (s : Setting) : Option String := g.settings.lookup s

/-- Takes a switch into account. -/
def addSwitch (g : Given) (s : Switch) : Except Refusal Given :=
  if s = .version then .error .version
  else if s = .help then .error .help
  else if g.has s then .error .misuse
  else .ok { g with switches := s :: g.switches }

/-- Takes a setting into account. Its value is not empty. -/
def addSetting (g : Given) (s : Setting) (value : String) : Except Refusal Given :=
  if value = "" ∨ (g.value? s).isSome then .error .misuse
  else .ok { g with settings := (s, value) :: g.settings }

/-- Takes the name of a note into account. -/
def addNote (level : Level) (g : Given) (name : String) : Except Refusal Given :=
  if level.takesNote ∧ g.note = none then .ok { g with note := some name } else .error .misuse

end Given

/-- What an argument has done: it stands for itself, or it is an option that waits for the next
argument as its value. -/
inductive Effect where
  | done (given : Given)
  | awaits (setting : Setting)

/-- The switch with the given letter. -/
def Level.switch? (level : Level) (letter : Char) : Option Switch :=
  (level.switches.find? (·.2.1 = some letter)).map (·.2.2)

/-- The setting with the given letter. -/
def Level.setting? (level : Level) (letter : Char) : Option Setting :=
  (level.settings.find? (·.2.1 = some letter)).map (·.2.2)

/-- Reads an option by its long name, with the value that an equality sign attaches to it. -/
def readLong (level : Level) (g : Given) (text : List Char) : Except Refusal Effect :=
  let (name, value) := match cut? ['='] text with
    | some (name, value) => (String.ofList name, some (String.ofList value))
    | none => (String.ofList text, none)
  match level.switches.lookup name, level.settings.lookup name, value with
  | some (_, s), _, none => (g.addSwitch s).map .done
  | _, some (_, s), some value => (g.addSetting s value).map .done
  | _, some (_, s), none => .ok (.awaits s)
  | _, _, _ => .error .misuse

/-- Reads the letters of short options. What follows the letter of a setting is its value, with or
without an equality sign. -/
def readLetters (level : Level) (g : Given) : List Char → Except Refusal Effect
  | [] => .ok (.done g)
  | c :: rest =>
    match level.switch? c, level.setting? c with
    | some s, _ => do readLetters level (← g.addSwitch s) rest
    | none, some s =>
      if rest = [] then .ok (.awaits s)
      else (g.addSetting s (String.ofList ((after? ['='] rest).getD rest))).map .done
    | none, none => .error .misuse

/-- Whether an argument is an option by its looks. -/
def isOption (arg : String) : Bool := startsIn (· == '-') arg.toList && arg != "-"

/-- Reads the arguments of a level up to the name of a command or to the end. After two hyphens
nothing is an option. -/
def readLevel (level : Level) (g : Given) : List String → Except Refusal (Given × List String)
  | [] => .ok (g, [])
  | "--" :: args => do
    if level = .program then throw .misuse
    return (← args.foldlM (Given.addNote level) g, [])
  | arg :: args =>
    if isOption arg then do
      let effect ← match after? ['-', '-'] arg.toList with
        | some text => readLong level g text
        | none => readLetters level g (arg.toList.drop 1)
      match effect, args with
      | .done g, args => readLevel level g args
      | .awaits s, value :: args =>
        if isOption value then .error .misuse
        else do readLevel level (← g.addSetting s value) args
      | .awaits _, [] => .error .misuse
    else if level = .program then .ok (g, arg :: args)
    else do readLevel level (← Given.addNote level g arg) args

/-! ## Command lines -/

/-- What is to be done. -/
inductive Command where
  /-- Exports a note to a file. -/
  | exporting (note : String) (template : Option String) (noTemplate : Bool)
    (preamble output : Option String) (json : Bool)
  /-- Exports a selection of a note. -/
  | selecting (note : String) (input : Option String) (stdout : Bool)
  /-- Shows the configuration. -/
  | showing
  deriving DecidableEq

/-- A well-formed command line. -/
structure Arguments where
  command : Command
  verbose : Bool
  quiet : Bool
  /-- The configuration file, where the command line or the environment names one. -/
  config : Option String
  vault : String
  deriving DecidableEq

/-- Whether two options that exclude each other are on the same level. -/
def Given.isContradictory (g : Given) : Bool :=
  (g.has .verbose && g.has .quiet) || (g.has .noTemplate && (g.value? .template).isSome)

/-- The command that a level asks for. -/
def Given.command (g : Given) : Level → Except Refusal Command
  | .exporting =>
    match g.note with
    | none => .error .misuse
    | some note =>
      .ok (.exporting note (g.value? .template) (g.has .noTemplate) (g.value? .preamble)
        (g.value? .output) (g.has .json))
  | .selecting =>
    match g.note with
    | none => .error .misuse
    | some note => .ok (.selecting note (g.value? .input) (g.has .stdout))
  | .showing => .ok .showing
  | .program => .error .misuse

/-- The configuration file. The environment names it where a level does not, and then not by an
empty text. -/
def configOf (outer inner : Given) (fromEnvironment : Option String) :
    Except Refusal (Option String) :=
  match inner.value? .config, outer.value? .config with
  | some path, some _ => .ok path
  | path, path' =>
    if fromEnvironment = some "" then .error .misuse else .ok ((path.or path').or fromEnvironment)

/-- Reads a command line. `fromEnvironment` is the configuration file that the environment names. -/
def readLine (fromEnvironment : Option String) (args : List String) : Except Refusal Arguments := do
  let (outer, rest) ← readLevel .program .nothing args
  match rest with
  | [] => throw .misuse
  | name :: rest =>
    if name = "help" then throw .help
    match Level.ofCommand? name with
    | none => throw .misuse
    | some level =>
      let (inner, _) ← readLevel level .nothing rest
      if outer.isContradictory || inner.isContradictory then throw .misuse
      return {
        command := ← inner.command level
        verbose := outer.has .verbose || inner.has .verbose
        quiet := outer.has .quiet || inner.has .quiet
        config := ← configOf outer inner fromEnvironment
        vault := ((inner.value? .vault).or (outer.value? .vault)).getD "." }

end Longform.Cli
