import Longform.Disk
import Longform.Store

/-!
# Vaults

A vault is a folder of notes on a disk. What lies in it is listed at the first
search and remembered until the vault itself writes something.
-/

namespace Longform

/-- A folder of notes. -/
structure Vault where
  /-- The path of the folder. -/
  root : String
  disk : Disk
  /-- The documents that the last listing found. -/
  listing : Option (List Document)

namespace Vault

/-- A vault that has not been searched yet. -/
def atFolder (root : String) (disk : Disk) : Vault := ⟨root, disk, none⟩

/-- The path of a document on the disk. -/
def pathOf (v : Vault) (d : Document) : String := Path.join v.root d.path

/-- The documents in the vault, in the order of their paths; hidden ones are left out. A vault that
is no folder has none. -/
def documents (v : Vault) : List Document :=
  match v.disk.locate v.root with
  | .error _ => []
  | .ok folder =>
    (v.disk.filesIn folder).map fun names => ⟨String.intercalate "/" names⟩

/-- The documents as they were listed last, or as they are. -/
def listed (v : Vault) : List Document := v.listing.getD v.documents

def find (address : String) (v : Vault) : Lookup × Vault :=
  (Lookup.search address v.listed, { v with listing := some v.listed })

def read (d : Document) (v : Vault) : Except Error String × Vault :=
  match v.disk.read (v.pathOf d) with
  | .ok text => (.ok text, v)
  | .error .missing => (.error (.notFound d.path), v)
  | .error fault => (.error (.disk fault), v)

/-- Creates the folders that a path lies in. -/
def prepare (disk : Disk) (path : String) : Except DiskFault Unit × Disk :=
  match Path.parent? path with
  | some folder => disk.makeFolders folder
  | none => (.ok (), disk)

/-- Writes a document. The listing is forgotten when that succeeds. -/
def write (d : Document) (text : String) (v : Vault) : Except Error Unit × Vault :=
  match prepare v.disk (v.pathOf d) with
  | (.error fault, disk) => (.error (.disk fault), { v with disk })
  | (.ok (), disk) =>
    match disk.write (v.pathOf d) (.text text) with
    | (.error fault, disk) => (.error (.disk fault), { v with disk })
    | (.ok (), disk) => (.ok (), { v with disk, listing := none })

instance : Store Vault := ⟨find, read, write⟩

end Vault

end Longform
