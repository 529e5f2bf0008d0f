import Longform.Error
import Longform.Path

/-!
# The disk

Files and folders by their absolute paths, and what the operations of a file
system do to them. A path is followed name by name, and each name on the way must
be that of a folder.

Listing a folder (`Disk.filesIn`) goes through the folders in it, each of them
name by name.
-/

namespace Longform

/-- What a file holds. -/
inductive Content where
  | text (text : String)
  /-- Octets that are no UTF-8 text. -/
  | octets (octets : List UInt8)
  deriving DecidableEq

/-- What a name on the disk stands for. -/
inductive Item where
  | file (content : Content)
  | folder
  deriving DecidableEq

/-- The files and folders of a disk. -/
structure Disk where
  /-- What there is, by absolute path and in the order of the paths; the root is left out. -/
  items : List (List String × Item)
  /-- The folder that relative paths begin at. -/
  here : List String

namespace Disk

open Text

/-! ## Items -/

/-- What there is at an absolute path. -/
def item? (d : Disk) (place : List String) : Option Item :=
  if place = [] then some .folder else d.items.lookup place

/-- Puts an item at its place. -/
def putItem (place : List String) (item : Item) :
    List (List String × Item) → List (List String × Item)
  | [] => [(place, item)]
  | (n, i) :: more =>
    if place = n then (place, item) :: more
    else if place < n then (place, item) :: (n, i) :: more
    else (n, i) :: putItem place item more

def put (d : Disk) (place : List String) (item : Item) : Disk :=
  { d with items := putItem place item d.items }

theorem lookup_putItem (place : List String) (item : Item) (items : List (List String × Item)) :
    (putItem place item items).lookup place = some item := by
  fun_induction putItem place item items with
  | case1 => simp
  | case2 => simp
  | case3 => simp
  | case4 n i more h _ ih =>
    have : (place == n) = false := by simpa using h
    simp [List.lookup_cons, this, ih]

/-! ## Paths -/

/-- Follows the pieces between the slashes of a path. The last name may be missing. -/
def walk (d : Disk) : (place : List String) → List (List Char) → Except DiskFault (List String)
  | place, [] => .ok place
  | place, piece :: more =>
    match d.item? place with
    | none => .error .missing
    | some (.file _) => .error .notAFolder
    | some .folder =>
      if piece = [] ∨ piece = ['.'] then walk d place more
      else if piece = ['.', '.'] then walk d place.dropLast more
      else
        let name := String.ofList piece
        if 255 < name.utf8ByteSize then .error .nameTooLong else walk d (place ++ [name]) more

/-- The absolute path that a path leads to. -/
def locate (d : Disk) (path : String) : Except DiskFault (List String) :=
  if path.toList.contains '\x00' then .error .nullInPath
  else if path = "" then .error .missing
  else d.walk (if startsIn (· == '/') path.toList then [] else d.here) (splitOn '/' path.toList)

/-- Whether a path leads to something. -/
def exists? (d : Disk) (path : String) : Bool :=
  match d.locate path with
  | .ok place => (d.item? place).isSome
  | .error _ => false

/-- Whether a path leads to a folder. -/
def isFolder (d : Disk) (path : String) : Bool :=
  match d.locate path with
  | .ok place => d.item? place == some .folder
  | .error _ => false

/-! ## Files -/

/-- The text of a file. -/
def read (d : Disk) (path : String) : Except DiskFault String := do
  match d.item? (← d.locate path) with
  | none => throw .missing
  | some .folder => throw .isAFolder
  | some (.file (.octets _)) => throw .notText
  | some (.file (.text text)) => return text

/-- A path without the slashes at its end, unless there is nothing else. -/
def withoutSlashes (path : String) : String :=
  let bare := dropEndWhile (· == '/') path.toList
  if bare = [] then path else String.ofList bare

/-- Whether a path ends in a slash, which only the path of a folder may do. -/
def hasSlash (path : String) : Bool := endsIn (· == '/') path.toList

/-- Creates or replaces a file. -/
def write (d : Disk) (path : String) (content : Content) : Except DiskFault Unit × Disk :=
  match d.locate (withoutSlashes path) with
  | .error fault => (.error fault, d)
  | .ok place =>
    match d.item? place with
    | some .folder => (.error .isAFolder, d)
    | some (.file _) =>
      if hasSlash path then (.error .notAFolder, d)
      else (.ok (), d.put place (.file content))
    | none =>
      if hasSlash path then (.error .isAFolder, d)
      else (.ok (), d.put place (.file content))

/-! ## Folders -/

/-- Creates a folder in one that exists. -/
def makeFolder (d : Disk) (path : String) : Except DiskFault Disk := do
  let place ← d.locate (withoutSlashes path)
  if (d.item? place).isSome then throw .exists else return d.put place .folder

/-- Creates the first of the given folders, where each of them lies in the next one. -/
def makeFirst (d : Disk) : List String → Except DiskFault Unit × Disk
  | [] => (.error (.other "failed to create whole tree"), d)
  | path :: above =>
    if path = "" then (.ok (), d)
    else match d.makeFolder path with
      | .ok d => (.ok (), d)
      | .error .missing =>
        match makeFirst d above with
        | (.error fault, d) => (.error fault, d)
        | (.ok (), d) =>
          match d.makeFolder path with
          | .ok d => (.ok (), d)
          | .error fault => (if d.isFolder path then .ok () else .error fault, d)
      | .error fault => (if d.isFolder path then .ok () else .error fault, d)

/-- Creates a folder and the folders it lies in, where they do not exist. -/
def makeFolders (d : Disk) (path : String) : Except DiskFault Unit × Disk :=
  d.makeFirst (Path.ancestors path)

/-! ## Listing -/

/-- Puts a name before the first one that does not come before it. -/
def putEntry (name : String) (item : Item) : List (String × Item) → List (String × Item)
  | [] => [(name, item)]
  | (n, i) :: more =>
    if n < name then (n, i) :: putEntry name item more else (name, item) :: (n, i) :: more

/-- The names in a folder and what they stand for, in the order of the names. -/
def entries (d : Disk) (folder : List String) : List (String × Item) :=
  (d.items.filterMap fun (place, item) =>
    if place.dropLast = folder then place.getLast?.map (·, item) else none).foldr
      (fun (name, item) => putEntry name item) []

/-- How many names the longest path on the disk has. -/
def depth (d : Disk) : Nat := d.items.foldr (fun (place, _) most => max place.length most) 0

/-- Whether a file or folder of this name is hidden. -/
def isHidden (name : String) : Bool := startsIn (· == '.') name.toList

/-- The files in a folder, and in the folders in it down to a depth, by their names from there on.
Each folder is listed in the order of its names, and what is in a folder stands at the place of its
name. Hidden files are left out, and so are hidden folders with all that is in them. -/
def filesUpTo (d : Disk) : (depth : Nat) → (folder : List String) → List (List String)
  | 0, _ => []
  | depth + 1, folder =>
    (d.entries folder).flatMap fun (name, item) =>
      if isHidden name then []
      else match item with
        | .file _ => [[name]]
        | .folder => (d.filesUpTo depth (folder ++ [name])).map (name :: ·)

/-- The files in a folder and below it, by their names from there on; nothing lies deeper than the
longest path. -/
def filesIn (d : Disk) (folder : List String) : List (List String) := d.filesUpTo d.depth folder

end Disk

end Longform
