import Longform.Error
import Longform.Inline
import Longform.Yaml.Value

/-!
# Front matter

A note may begin with a block of YAML between `---` and `---` or `...`. Its
mapping is kept as strings by key, in the order of the keys.

* `FrontMatter.cut?` divides a text at the two delimiter lines. Byte order marks
  before them are dropped.
* `FrontMatter.split` reads the block and leaves the rest, and leaves a text
  without a closed block as it is.
-/

namespace Longform

/-- Strings by key, in ascending order of the keys. -/
structure FrontMatter where
  entries : List (String × String)
  deriving DecidableEq, Inhabited

namespace FrontMatter

open Text

/-! ## Entries -/

def empty : FrontMatter := ⟨[]⟩

/-- The value of a key. -/
def get? (f : FrontMatter) (key : String) : Option String := f.entries.lookup key

/-- Puts an entry at its place, instead of one with the same key. -/
def insertEntry (key value : String) : List (String × String) → List (String × String)
  | [] => [(key, value)]
  | (k, v) :: more =>
    if key = k then (key, value) :: more
    else if key < k then (key, value) :: (k, v) :: more
    else (k, v) :: insertEntry key value more

/-- Sets the value of a key. -/
def insert (f : FrontMatter) (key value : String) : FrontMatter :=
  ⟨insertEntry key value f.entries⟩

theorem lookup_insertEntry (key value : String) (entries : List (String × String)) :
    (insertEntry key value entries).lookup key = some value := by
  fun_induction insertEntry key value entries with
  | case1 => simp
  | case2 => simp
  | case3 => simp
  | case4 k v more hne _ ih =>
    have : (key == k) = false := by simpa using hne
    simp [List.lookup_cons, this, ih]

theorem get?_insert (f : FrontMatter) (key value : String) :
    (f.insert key value).get? key = some value :=
  lookup_insertEntry key value f.entries

/-! ## Values as strings -/

/-- Numbers are written out as long as they have at most 16 digits before the point and fewer than
5 zeros after it. -/
def numberLayout : Decimal.Layout := ⟨16, 5⟩

/-- A floating-point number as text. -/
def floatText (x : Float) : String :=
  if x.isNaN then ".nan"
  else if x.isInf then (if x < 0.0 then "-.inf" else ".inf")
  else Decimal.render numberLayout x

/-- A string, number or boolean as text. -/
def scalarText? : Yaml.Value → Option String
  | .string s => some s
  | .integer n => some (toString n)
  | .float x => some (floatText x)
  | .bool b => some (if b then "true" else "false")
  | .null | .sequence _ | .mapping _ | .tagged _ _ => none

/-- A value as text. The scalars of a list are joined; what has no text is empty. -/
def valueText : Yaml.Value → String
  | .sequence items => Inline.joinWith ", " (items.filterMap scalarText?)
  | .tagged _ value => valueText value
  | value => (scalarText? value).getD ""

/-- The entries of a mapping whose keys have a text. Of two keys with the same text the later
counts. -/
def ofMapping (entries : List (Yaml.Value × Yaml.Value)) : FrontMatter :=
  entries.foldl (fun f (key, value) =>
    match scalarText? key with
    | some key => f.insert key (valueText value)
    | none => f) empty

/-- The front matter that a YAML text holds. A text that is no mapping holds none. -/
def parse (yaml : String) : Except Error FrontMatter :=
  if yaml.toList.all isBlank then .ok empty
  else match Yaml.read yaml with
    | .ok (.mapping entries) => .ok (ofMapping entries)
    | .ok _ => .ok empty
    | .error fault => .error (.serialization fault.message)

/-! ## Splitting a note -/

/-- Whether a line opens the block. -/
def isOpening (line : List Char) : Bool := trimEnd line == ['-', '-', '-']

/-- Whether a line closes the block. -/
def isClosing (line : List Char) : Bool :=
  trimEnd line == ['-', '-', '-'] || trimEnd line == ['.', '.', '.']

/-- The lines before the first line that closes the block, and the lines after it. -/
def cutLines? : List (List Char) → Option (List (List Char) × List (List Char))
  | [] => none
  | line :: more =>
    if isClosing line then some ([], more)
    else (cutLines? more).map fun (yaml, body) => (line :: yaml, body)

/-- The text without the byte order marks at its beginning. -/
def withoutMarks (text : List Char) : List Char := text.dropWhile (· == '\uFEFF')

/-- The front matter of a note and its body, as texts, when the note begins with a closed block. The
line that opens the block must have an end. -/
def cut? (text : List Char) : Option (List Char × List Char) :=
  match linesKeepingEnds (withoutMarks text) with
  | [] => none
  | first :: more =>
    if isOpening first && endsIn (· == '\n') first then
      (cutLines? more).map fun (yaml, body) => (yaml.flatten, body.flatten)
    else none

theorem cutLines?_eq_some {ls yaml body : List (List Char)}
    (h : cutLines? ls = some (yaml, body)) :
    ∃ line, isClosing line = true ∧ ls = yaml ++ line :: body := by
  fun_induction cutLines? ls generalizing yaml with
  | case1 => simp at h
  | case2 line more hc =>
    obtain ⟨rfl, rfl⟩ := Prod.mk.inj (Option.some.inj h)
    exact ⟨line, hc, rfl⟩
  | case3 line more _ ih =>
    obtain ⟨⟨y, b⟩, hy, e⟩ := Option.map_eq_some_iff.1 h
    obtain ⟨rfl, rfl⟩ := Prod.mk.inj e
    obtain ⟨l, hl, rfl⟩ := ih hy
    exact ⟨l, hl, rfl⟩

/-- Divides a note into its front matter and its body. A note without a closed block is all
body. -/
def split (text : String) : Except Error (FrontMatter × String) :=
  match cut? text.toList with
  | none => .ok (empty, text)
  | some (yaml, body) => do
    let front ← parse (String.ofList yaml)
    .ok (front, String.ofList body)

end FrontMatter

end Longform
