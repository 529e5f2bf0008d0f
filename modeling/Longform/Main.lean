import Longform.Cli

/-!
# The program

Reads what a run may need into a disk in memory, lets `Cli.execute` do the run, and
writes back what it has changed.
-/

namespace Longform.Program

/-- The names in an absolute path. -/
def namesOf (path : String) : List String :=
  ((Text.splitOn '/' path.toList).filter (· ≠ [])).map String.ofList

/-- The absolute path of names. -/
def pathOf (names : List String) : String := "/" ++ String.intercalate "/" names

/-- Puts a folder and the folders it lies in on a disk. -/
def putFolder (disk : Disk) (names : List String) : Disk :=
  (List.range names.length).foldl (fun d n => d.put (names.take (n + 1)) .folder) disk

/-- Takes a file, or a folder with all that it holds. What cannot be read is left out. -/
partial def take (disk : Disk) (names : List String) : IO Disk := do
  let path ← IO.FS.realPath (pathOf names)
  try
    if ← path.isDir then
      let mut disk := putFolder disk names
      for entry in ← path.readDir do
        disk ← take disk (names ++ [entry.fileName])
      return disk
    else
      let octets ← IO.FS.readBinFile path
      let content := match String.fromUTF8? octets with
        | some text => Content.text text
        | none => .octets octets.toList
      return (putFolder disk names.dropLast).put names (.file content)
  catch _ => return disk

/-- Writes a file or a folder that a run has made or changed. -/
def giveBack (names : List String) (item : Item) : IO Unit :=
  match item with
  | .folder => IO.FS.createDirAll (pathOf names)
  | .file (.text text) => IO.FS.writeFile (pathOf names) text
  | .file (.octets octets) => IO.FS.writeBinFile (pathOf names) ⟨octets.toArray⟩

/-- The paths that a run with these arguments reads or writes. -/
def pathsOf (a : Cli.Arguments) (e : Environment) : List String :=
  let config := a.config.or e.configPath.toOption
  let seen (path : String) : String := Path.join a.vault path
  let named := match a.command with
    | .exporting _ template _ _ output _ =>
      (template.map seen).toList ++ ((output.map seen).bind Path.parent?).toList
    | .selecting _ input _ => input.toList
    | .showing => []
  a.vault :: config.toList ++ named

/-- The disk that a run begins with. -/
def diskFor (a : Cli.Arguments) (e : Environment) : IO Disk := do
  let here := namesOf (← IO.currentDir).toString
  let mut disk := putFolder ⟨[], here⟩ here
  for path in pathsOf a e do
    try disk ← take disk (namesOf (← IO.FS.realPath path).toString) catch _ => pure ()
  return disk

/-- Shows what a run shows and answers its code. -/
def finish (before : Disk) (o : Cli.Outcome) : IO UInt32 := do
  for (names, item) in o.disk.items do
    if before.item? names ≠ some item then giveBack names item
  IO.print o.output
  IO.eprint o.messages
  return o.code.toUInt32

/-- A run of the program. -/
def run (args : List String) : IO UInt32 := do
  let e : Environment := {
    configFile := ← IO.getEnv "LONGTEX_CONFIG"
    configHome := ← IO.getEnv "XDG_CONFIG_HOME"
    home := ← IO.getEnv "HOME"
    accountHome := none }
  let disk ← match Cli.readLine e.configFile args with
    | .ok a => diskFor a e
    | .error _ => pure ⟨[], []⟩
  let given ← match Cli.readLine e.configFile args with
    | .ok ⟨.selecting _ none _, _, _, _, _⟩ => (← IO.getStdin).readToEnd
    | _ => pure ""
  match Cli.execute args e given disk with
  | some outcome => finish disk outcome
  | none =>
    IO.eprintln "Error: the notes embed each other without end"
    return 1

end Longform.Program

def main (args : List String) : IO UInt32 := Longform.Program.run args
