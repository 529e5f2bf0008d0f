import Longform.Text.Basic

/-!
# Paths

A path is text; its meaning is its list of components. Repeated slashes and dots
in the middle do not count, so several spellings have the same components and
name the same document. Documents are kept and visited in the order of their
components (`Path.precedes`).
-/

namespace Longform.Path

open Text

/-- A step of a path. -/
inductive Component where
  /-- The slash an absolute path begins with. -/
  | root
  /-- The dot a relative path may begin with. -/
  | here
  | up
  | name (name : String)
  deriving DecidableEq

namespace Component

/-- The kinds of components in ascending order. -/
def rank : Component → Nat
  | .root => 0
  | .here => 1
  | .up => 2
  | .name _ => 3

/-- The name of a component that has one. -/
def name? : Component → Option String
  | .name n => some n
  | _ => none

/-- Components are ordered by kind, and names among themselves by their characters. -/
def precedes (a b : Component) : Bool :=
  match a, b with
  | .name m, .name n => m < n
  | _, _ => a.rank < b.rank

end Component

/-- The component that a piece between slashes stands for. Dots are dropped; the dot at the
beginning of a relative path is treated by `components`. -/
def component? (piece : List Char) : Option Component :=
  if piece = [] ∨ piece = ['.'] then none
  else if piece = ['.', '.'] then some .up
  else some (.name (String.ofList piece))

/-- The components of a path. -/
def components (path : String) : List Component :=
  let pieces := splitOn '/' path.toList
  let first := match path.toList, pieces with
    | '/' :: _, _ => [Component.root]
    | _, ['.'] :: _ => [Component.here]
    | _, _ => []
  first ++ pieces.filterMap component?

/-- The order of documents: component by component, a folder before what it holds. -/
def precedes : (a b : List Component) → Bool
  | [], [] => false
  | [], _ :: _ => true
  | _ :: _, [] => false
  | a :: as, b :: bs => a.precedes b || (a == b && precedes as bs)

/-- The last component of a path, when it is a name. -/
def fileName? (path : String) : Option String :=
  (components path).getLast?.bind Component.name?

/-- A file name as the part before its last dot and the part after it. A dot at the beginning does
not count, and neither does a name of dots alone mean more than itself. -/
def cutExtension (name : List Char) : List Char × Option (List Char) :=
  if name = ['.', '.'] then (name, none)
  else match cutLast? '.' name with
    | none => (name, none)
    | some ([], _) => (name, none)
    | some (stem, extension) => (stem, some extension)

/-- The file name without its extension. -/
def fileStem? (path : String) : Option String :=
  (fileName? path).map fun name => String.ofList (cutExtension name.toList).1

/-- The extension of the file name. -/
def extension? (path : String) : Option String := do
  let name ← fileName? path
  let extension ← (cutExtension name.toList).2
  some (String.ofList extension)

/-- The pieces between slashes, last first, without the ones at the end that do not count. `rooted`
says whether the slash before the first piece makes the path absolute. -/
def dropIdle (rooted : Bool) : List (List Char) → List (List Char)
  | [] => []
  | piece :: pieces =>
    if piece = [] ∨ (piece = ['.'] ∧ (rooted ∨ pieces ≠ [])) then dropIdle rooted pieces
    else piece :: pieces

/-- The path without its last component, in the spelling it had. The root and the empty path have
no parent. -/
def parent? (path : String) : Option String :=
  let rooted := startsIn (· == '/') path.toList
  let body := if rooted then path.toList.tail else path.toList
  match dropIdle rooted (splitOn '/' body).reverse with
  | [] => none
  | _ :: folders =>
    let kept := dropIdle rooted folders
    let text := List.intercalate ['/'] kept.reverse
    some (String.ofList (if rooted then '/' :: text else text))

/-- A path, its parent, the parent of that and so on, one for each unit of fuel. -/
def ancestorsUpTo : (fuel : Nat) → (path : String) → List String
  | 0, _ => []
  | fuel + 1, path => path :: ((parent? path).elim [] (ancestorsUpTo fuel))

/-- A path and all the paths above it. -/
def ancestors (path : String) : List String := ancestorsUpTo (path.length + 1) path

/-- `path` seen from the folder `base`. An absolute path stays as it is. -/
def join (base path : String) : String :=
  if startsIn (· == '/') path.toList then path
  else if base = "" ∨ endsIn (· == '/') base.toList then base ++ path
  else base ++ "/" ++ path

/-- The path with the extension of its file name replaced, or added where there is none, and
without what follows the file name. A path without a file name stays as it is. -/
def withExtension (path extension : String) : String :=
  match fileStem? path, dropIdle false (splitOn '/' path.toList).reverse with
  | some stem, _ :: folders =>
    let name := (stem ++ "." ++ extension).toList
    String.ofList (List.intercalate ['/'] (name :: folders).reverse)
  | _, _ => path

end Longform.Path
