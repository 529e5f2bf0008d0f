import Longform.Config
import Longform.Disk

/-!
# Configuration files

Where a configuration is kept, and reading and writing it there. The variables of
the environment may name the file or the folder that holds it.
-/

namespace Longform

/-- The variables of the environment that say where the configuration is. -/
structure Environment where
  /-- The path of the configuration file. -/
  configFile : Option String
  /-- The folder of all configurations. It counts if it is absolute. -/
  configHome : Option String
  home : Option String
  /-- The home folder of the account, for where the environment has none. -/
  accountHome : Option String

namespace Environment

/-- A variable that has a value other than the empty text. -/
def filled (value : Option String) : Option String := value.filter (· != "")

/-- The folder of all configurations. -/
def configFolder? (e : Environment) : Option String := do
  let home ← filled e.home <|> e.accountHome
  return (e.configHome.filter fun p => Text.startsIn (· == '/') p.toList).getD
    (Path.join home ".config")

/-- The path of the configuration file. -/
def configPath (e : Environment) : Except ConfigFault String :=
  match filled e.configFile, e.configFolder? with
  | some path, _ => .ok path
  | none, some folder => .ok (Path.join (Path.join folder "longtex") "config.toml")
  | none, none => .error .noHome

end Environment

namespace Config

/-- The configuration in a file. -/
def loadFrom (path : String) (disk : Disk) : Except ConfigFault Config :=
  match disk.read path with
  | .error fault => .error (.unreadable fault)
  | .ok text => read text

/-- The configuration of the environment; the standard one if there is no file. -/
def load (e : Environment) (disk : Disk) : Except ConfigFault Config := do
  let path ← e.configPath
  if disk.exists? path then loadFrom path disk else .ok standard

/-- Writes a configuration to a file. The folders it lies in are made. -/
def saveTo (c : Config) (path : String) (disk : Disk) : Except ConfigFault Unit × Disk :=
  match Path.parent? path with
  | none => (.error .badPath, disk)
  | some folder =>
    match disk.makeFolders folder with
    | (.error fault, disk) => (.error (.noFolder fault), disk)
    | (.ok (), disk) =>
      match c.write with
      | .error fault => (.error fault, disk)
      | .ok text =>
        let (done, disk) := disk.write path (.text text)
        (done.mapError .unwritable, disk)

/-- Writes a configuration to where the environment keeps it. -/
def save (c : Config) (e : Environment) (disk : Disk) : Except ConfigFault Unit × Disk :=
  match e.configPath with
  | .error fault => (.error fault, disk)
  | .ok path => c.saveTo path disk

end Config

end Longform
