import Longform.Decimal
import Longform.Yaml.Node

/-!
# YAML values

What the nodes of a document mean: plain scalars are null, booleans, numbers or
strings, tags choose between these, and aliases stand for the nodes they name.

`Yaml.read` reads the value of a text.
-/

namespace Longform.Yaml

open Text

/-- A value that YAML can express. -/
inductive Value where
  | null
  | bool (value : Bool)
  | integer (value : Int)
  | float (value : Float)
  | string (text : String)
  | sequence (items : List Value)
  | mapping (entries : List (Value × Value))
  /-- A value with a tag of the text's own. -/
  | tagged (tag : String) (value : Value)
  deriving Inhabited

namespace Value

mutual

/-- Whether two values are the same key. The order of the entries of a mapping does not count. -/
def same : Value → Value → Bool
  | .null, .null => true
  | .bool a, .bool b => a == b
  | .integer a, .integer b => a == b
  | .float a, .float b => a == b || (a.isNaN && b.isNaN)
  | .string a, .string b => a == b
  | .sequence as, .sequence bs => sameItems as bs
  | .mapping as, .mapping bs => as.length == bs.length && entriesIn bs as
  | .tagged s a, .tagged t b => s == t && same a b
  | _, _ => false

def sameItems : List Value → List Value → Bool
  | [], [] => true
  | a :: as, b :: bs => same a b && sameItems as bs
  | _, _ => false

/-- Whether each of the second entries is one of the first. -/
def entriesIn (bs : List (Value × Value)) : List (Value × Value) → Bool
  | [] => true
  | (k, v) :: more => bs.any (fun e => same k e.1 && same v e.2) && entriesIn bs more

end

/-! ## Scalars -/

def ofNull? (s : List Char) : Option Unit :=
  if ["null", "Null", "NULL", "~"].contains (String.ofList s) then some () else none

def ofBool? (s : List Char) : Option Bool :=
  if ["true", "True", "TRUE"].contains (String.ofList s) then some true
  else if ["false", "False", "FALSE"].contains (String.ofList s) then some false
  else none

/-- Whether a text is no number, because of a zero in front of other digits. -/
def hasIdleZero (s : List Char) : Bool :=
  match (cutSign s).2 with
  | '0' :: c :: more => (c :: more).all Char.isDigit
  | _ => false

/-- An integer in base 10, or in base 16, 8 or 2 after `0x`, `0o` or `0b`. -/
def ofInteger? (s : List Char) : Option Int :=
  let (negative, body) := cutSign s
  let size := match body with
    | '0' :: 'x' :: ds => digits? 16 ds
    | '0' :: 'o' :: ds => digits? 8 ds
    | '0' :: 'b' :: ds => digits? 2 ds
    | ds => if hasIdleZero s then none else digits? 10 ds
  size.map fun n => if negative then -(n : Int) else n

/-- A number with a point or an exponent, an infinity or the text for no number. -/
def ofFloat? (s : List Char) : Option Float :=
  let (negative, body) := cutSign s
  let signed (x : Float) := if negative then -x else x
  let text := String.ofList body
  if [".inf", ".Inf", ".INF"].contains text then some (signed (1.0 / 0.0))
  else if [".nan", ".NaN", ".NAN"].contains (String.ofList s) then some (0.0 / 0.0)
  else do
    let x := (← Decimal.ofText? body).toFloat
    if x.isFinite then some (signed x) else none

/-- The integers that have a value: those that fit into 64 bits with or without a sign. -/
def fitsWord (n : Int) : Bool := -(wordSize 63 : Int) ≤ n ∧ n < wordSize 64

/-- The integers that are refused when they do not fit into 64 bits. Larger ones are read as
floats. -/
def fitsTwoWords (n : Int) : Bool := -(wordSize 127 : Int) ≤ n ∧ n < wordSize 128

/-- An integer, if the text is one; a fault if it is too large. -/
def integer? (s : List Char) : Except Fault (Option Value) :=
  match ofInteger? s with
  | none => .ok none
  | some n =>
    if fitsWord n then .ok (some (.integer n))
    else if fitsTwoWords n then .error .numberTooLarge
    else .ok none

/-- The value of a plain scalar without a tag. -/
def ofPlain (s : List Char) : Except Fault Value := do
  if s.isEmpty || (ofNull? s).isSome then return .null
  if let some b := ofBool? s then return .bool b
  if let some v := ← integer? s then return v
  if !hasIdleZero s then
    if let some x := ofFloat? s then return .float x
  return .string (String.ofList s)

/-- The value of a scalar with a tag of the standard. A tag that names none of the types of plain
scalars leaves the text a string. -/
def ofTagged (tag : String) (s : List Char) : Except Fault Value :=
  let require (v : Option Value) : Except Fault Value := v.elim (.error .wrongType) .ok
  if tag == "tag:yaml.org,2002:bool" then require ((ofBool? s).map .bool)
  else if tag == "tag:yaml.org,2002:int" then do require (← integer? s)
  else if tag == "tag:yaml.org,2002:float" then require ((ofFloat? s).map .float)
  else if tag == "tag:yaml.org,2002:null" then require ((ofNull? s).map fun _ => .null)
  else .ok (.string (String.ofList s))

/-- The value of a scalar. -/
def ofScalar (tag : Option String) (isPlain : Bool) (text : String) : Except Fault Value :=
  match tag with
  | some tag => ofTagged tag text.toList
  | none => if isPlain then ofPlain text.toList else .ok (.string text)

/-! ## Nodes -/

/-- A reader of values, which counts the aliases it has followed. -/
abbrev Reader := StateT Nat (Except Fault)

/-- A tag as the text's own tag, which begins with an exclamation mark. -/
def ownTag? (tag : Option String) : Option String :=
  match tag.map String.toList with
  | some ('!' :: c :: name) => some (String.ofList (c :: name))
  | some ['!'] => some "!"
  | _ => none

/-- Wraps a value in a tag of the text's own. -/
def withTag (tag : Option String) (v : Value) : Value :=
  match ownTag? tag with
  | some name => .tagged name v
  | none => v

/-- The node that an anchor stands for: the last one of its number. -/
def anchored? (doc : Document) (number : Nat) : Option Node :=
  let later (best : Option Anchored) (a : Anchored) : Option Anchored :=
    if a.number = number ∧ best.all (·.start < a.start) then some a else best
  (doc.anchored.foldl later none).map (·.node)

/-- The node that an alias stands for. At most a hundred aliases may be followed for each event of
the document. -/
def follow (doc : Document) : Node → Reader Node
  | .alias number => do
    modify (· + 1)
    if 100 * doc.size < (← get) then throw .tooManyAliases
    match anchored? doc number with
    | some node => return node
    | none => throw .unknownAlias
  | node => return node

/-- Reads the entries of a mapping, whose keys must differ. -/
def readEntries (read : Node → Reader Value) :
    (entries : List (Node × Node)) → (seen : List (Value × Value)) → Reader (List (Value × Value))
  | [], seen => return seen.reverse
  | (k, v) :: more, seen => do
    let key ← read k
    if seen.any (same key ·.1) then throw .duplicateKey
    let value ← read v
    readEntries read more ((key, value) :: seen)

/-- The value of a node that is no alias; `inner` reads what it holds, unless it is too deep. -/
def ofContent (inner : Option (Node → Reader Value)) : Node → Reader Value
  | .scalar tag isPlain text =>
    match ownTag? tag with
    | some name => do return .tagged name (← ofScalar none isPlain text)
    | none => ofScalar tag isPlain text
  | .sequence tag items =>
    match inner with
    | some read => do return withTag tag (.sequence (← items.mapM read))
    | none => throw .tooDeep
  | .mapping tag entries =>
    match inner with
    | some read => do return withTag tag (.mapping (← readEntries read entries []))
    | none => throw .tooDeep
  | .alias _ => throw .unknownAlias

/-- The value of a node that holds collections nested at most `depth` times. -/
def ofNode (doc : Document) : (depth : Nat) → Node → Reader Value
  | 0, node => do ofContent none (← follow doc node)
  | depth + 1, node => do ofContent (some (ofNode doc depth)) (← follow doc node)

end Value

/-- How deeply the collections of a document may be nested. -/
def maxDepth : Nat := 128

/-- The value of a YAML text that holds one document, or none. -/
def read (text : String) : Except Fault Value := do
  let doc ← Document.ofTokens (← Token.ofText text.toList)
  (Value.ofNode doc maxDepth doc.root).run' 0

end Longform.Yaml
