import Longform.Store

/-!
# Documents in memory

A store that holds its documents itself, in the order of their paths, and
remembers what was read and written. Two spellings of a path name the same
document, which keeps the spelling it was first given.
-/

namespace Longform

/-- Documents with their texts, in the order of their paths. -/
structure Memory where
  documents : List (Document × String)
  /-- What has been read, or tried to be read, in order. -/
  reads : List Document
  /-- What has been written, in order. -/
  writes : List Document
  deriving Inhabited

namespace Memory

/-- What makes two spellings the same path. -/
def key (d : Document) : List Path.Component := Path.components d.path

/-- Whether two documents are the same. -/
def same (d e : Document) : Bool := key d == key e

/-- No documents. -/
def empty : Memory := ⟨[], [], []⟩

/-- Puts a document at its place, or replaces the text of the same one. -/
def put (d : Document) (text : String) : List (Document × String) → List (Document × String)
  | [] => [(d, text)]
  | (e, old) :: more =>
    if same d e then (e, text) :: more
    else if Path.precedes (key d) (key e) then (d, text) :: (e, old) :: more
    else (e, old) :: put d text more

/-- The memory with a document added or replaced. -/
def insert (m : Memory) (d : Document) (text : String) : Memory :=
  { m with documents := put d text m.documents }

/-- The text of a document. -/
def get? (m : Memory) (d : Document) : Option String :=
  (m.documents.find? fun e => same d e.1).map (·.2)

/-- How often a document has been read. -/
def readsOf (m : Memory) (d : Document) : Nat := m.reads.countP (same d)

def read (d : Document) (m : Memory) : Except Error String × Memory :=
  ((m.get? d).elim (.error (.notFound d.path)) .ok, { m with reads := m.reads ++ [d] })

def write (d : Document) (text : String) (m : Memory) : Except Error Unit × Memory :=
  (.ok (), { m.insert d text with writes := m.writes ++ [d] })

def find (address : String) (m : Memory) : Lookup × Memory :=
  (Lookup.search address (m.documents.map (·.1)), m)

instance : Store Memory := ⟨find, read, write⟩

theorem same_self (d : Document) : same d d = true := by simp [same]

theorem get?_insert (m : Memory) (d : Document) (text : String) :
    (m.insert d text).get? d = some text := by
  simp only [get?, insert]
  generalize m.documents = docs
  fun_induction put d text docs with
  | case1 => simp [same_self]
  | case2 e old more h => simp [h]
  | case3 => simp [same_self]
  | case4 e old more h _ ih => simpa [List.find?_cons, h] using ih

end Memory

end Longform
