/-!
# TOML values

What a TOML text can say. Tables know how they came about, for that decides who
may still add to them: each table has at most one header, a dotted key adds only
to tables that have none, and a table between braces is closed for good.

`Table.alter` finds the table that a path leads to.
-/

namespace Longform.Toml

/-- How a table came about. -/
inductive Form where
  /-- It has a header of its own. -/
  | headed
  /-- Its name stands in the header of a table in it. -/
  | implied
  /-- Its name stands before a dot in a key. -/
  | dotted
  /-- It stands between braces. -/
  | closed
  deriving DecidableEq

/-- A value that TOML can express. -/
inductive Value where
  | string (text : String)
  | integer (value : Int)
  | float (value : Float)
  | bool (value : Bool)
  /-- A date, a time or both, in its spelling. -/
  | moment (text : String)
  | array (items : List Value)
  | table (form : Form) (entries : List (String × Value))
  /-- The tables whose headers have two brackets. -/
  | tables (items : List (List (String × Value)))
  deriving Inhabited

/-- The entries of a table in the order in which they were added. -/
abbrev Table := List (String × Value)

/-- Why the lines of a text do not make a table. -/
inductive Fault where
  /-- A line is none of TOML, from here on. -/
  | malformed (rest : String)
  | duplicateKey (key : String)
  /-- A path leads through a value that is no table. -/
  | notATable (key : String)
  deriving DecidableEq

/-- The wording of a fault. -/
def Fault.message : Fault → String
  | .malformed rest => "invalid TOML before: " ++ rest
  | .duplicateKey key => "duplicate key: " ++ key
  | .notATable key => "not a table: " ++ key

/-! ## Tables -/

namespace Table

/-- The entries with a new value for a key that has one. -/
def replace (key : String) (value : Value) (entries : Table) : Table :=
  entries.map fun e => if e.1 = key then (key, value) else e

/-- Changes the table that a path leads to from a table with the given form and entries. Tables that
are missing on the way are made. -/
def alter (dotted : Bool) (change : Form → Table → Except Fault Table) :
    (path : List String) → Form → Table → Except Fault Table
  | [], form, entries => change form entries
  | key :: path, _, entries =>
    match entries.lookup key with
    | none => do
      let form := if dotted then Form.dotted else .implied
      return entries ++ [(key, .table form (← alter dotted change path form []))]
    | some (.table form inner) =>
      if form = .closed then .error (.notATable key)
      else if dotted ∧ form = .headed then .error (.duplicateKey key)
      else do return entries.replace key (.table form (← alter dotted change path form inner))
    | some (.tables items) => do
      let last ← alter dotted change path .headed (items.getLast?.getD [])
      return entries.replace key (.tables (items.dropLast ++ [last]))
    | some _ => .error (.notATable key)

/-- Adds a value to the table that the part of a key before its last dot leads to. That table must
have been made by such keys, unless there is no dot. -/
def set (path : List String) (key : String) (value : Value) (entries : Table) :
    Except Fault Table :=
  alter true (fun form entries =>
    if (form == .dotted) == path.isEmpty then .error (.duplicateKey key)
    else if (entries.lookup key).isSome then .error (.duplicateKey key)
    else .ok (entries ++ [(key, value)])) path .headed entries

/-- Gives a table its header. -/
def head (path : List String) (key : String) (entries : Table) : Except Fault Table :=
  alter false (fun _ entries =>
    match entries.lookup key with
    | none => .ok (entries ++ [(key, .table .headed [])])
    | some (.table .implied inner) => .ok (entries.replace key (.table .headed inner))
    | some _ => .error (.duplicateKey key)) path .headed entries

/-- Adds a table to an array of tables. -/
def push (path : List String) (key : String) (entries : Table) : Except Fault Table :=
  alter false (fun _ entries =>
    match entries.lookup key with
    | none => .ok (entries ++ [(key, .tables [[]])])
    | some (.tables items) => .ok (entries.replace key (.tables (items ++ [[]])))
    | some _ => .error (.duplicateKey key)) path .headed entries

end Table

end Longform.Toml
