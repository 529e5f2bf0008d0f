import Longform.Yaml.Scalar

/-!
# YAML tokens

The indicators, names and scalars of a YAML text, and how the ones that stand
for themselves are read: directives, anchors and tags. Which indicators the
indentation implies is told in `Yaml.Layout`.
-/

namespace Longform.Yaml

/-- A token of a YAML text. -/
inductive Token where
  | version (major minor : Nat)
  /-- A directive that gives a tag handle its meaning. -/
  | shorthand (handle meaning : String)
  /-- Three dashes. -/
  | documentStart
  /-- Three dots. -/
  | documentEnd
  /-- Implied where the entries of a block collection begin. -/
  | blockSequence
  | blockMapping
  /-- Implied where the entries of a block collection end. -/
  | blockEnd
  | flowSequence
  | flowSequenceEnd
  | flowMapping
  | flowMappingEnd
  /-- A comma. -/
  | separator
  /-- A dash. -/
  | entry
  /-- A question mark, or implied before the key of a mapping. -/
  | key
  /-- A colon. -/
  | value
  | alias (name : String)
  | anchor (name : String)
  | tag (handle suffix : String)
  | scalar (isPlain : Bool) (text : String)
  deriving DecidableEq

namespace Token

/-! ## Names -/

/-- Reads the name of an anchor or alias. -/
def anchorName (src : Source) : Except Fault (String × Source) :=
  let (name, rest) := src.spanText isWordChar
  let ended := rest.blankNext
    || rest.head?.any fun s => ['?', ':', ',', ']', '}', '%', '@', '\u0060'].contains s.char
  if name.isEmpty || !ended then .error .anchor else .ok (String.ofList name, rest)

/-- Reads a tag handle: `!`, `!!` or `!name!`. `!name` alone is read too. -/
def tagHandle (src : Source) : Except Fault (List Char × Source) :=
  if !src.starts '!' then .error .tag
  else
    let (name, rest) := Source.spanText isWordChar (src.drop 1)
    if rest.starts '!' then .ok ('!' :: name ++ ['!'], rest.drop 1)
    else .ok ('!' :: name, rest)

/-- The characters of a tag after its handle. Brackets and commas may stand only where the tag is
written in full. -/
def isTagChar (inFull : Bool) (c : Char) : Bool :=
  isWordChar c || ";/?:@&=+$.%!~*'()".toList.contains c || (inFull && ",[]".toList.contains c)

/-- The octets of a tag. A percent sign with two digits stands for one octet. -/
def octets? : (text : List Char) → Option (List UInt8)
  | [] => some []
  | '%' :: a :: b :: rest => do
    let octet ← Text.digits? 16 [a, b]
    some (octet.toUInt8 :: (← octets? rest))
  | '%' :: _ => none
  | c :: rest => do some ((String.singleton c).toUTF8.toList ++ (← octets? rest))

/-- Reads a tag after its handle. -/
def tagSuffix (inFull : Bool) (src : Source) : Except Fault (List Char × Source) :=
  let (text, rest) := src.spanText (isTagChar inFull)
  match (octets? text).bind fun octets => String.fromUTF8? ⟨octets.toArray⟩ with
  | none => .error .tag
  | some text => .ok (text.toList, rest)

/-- Reads a tag. -/
def readTag (inFlow : Bool) (src : Source) : Except Fault (Token × Source) := do
  let (token, rest) ← if Source.starts '<' (src.drop 1) then full else short
  if rest.blankNext || (inFlow && rest.starts ',') then .ok (token, rest) else throw .tag
where
  /-- A tag between `!<` and `>`. -/
  full : Except Fault (Token × Source) := do
    let (text, rest) ← tagSuffix true (src.drop 2)
    if text.isEmpty || !rest.starts '>' then throw .tag
    .ok (.tag "" (String.ofList text), rest.drop 1)
  /-- A tag with a handle. A lone `!` is a tag of its own. -/
  short : Except Fault (Token × Source) := do
    let (handle, rest) ← tagHandle src
    let (text, rest) ← tagSuffix false rest
    if 2 ≤ handle.length && handle.getLast? == some '!' then
      if text.isEmpty then throw .tag
      .ok (.tag (String.ofList handle) (String.ofList text), rest)
    else
      let text := handle.drop 1 ++ text
      if text.isEmpty then .ok (.tag "" "!", rest) else .ok (.tag "!" (String.ofList text), rest)

/-! ## Directives -/

/-- Reads a part of a version number. -/
def versionNumber (src : Source) : Except Fault (Nat × Source) :=
  let (digits, rest) := src.spanText Char.isDigit
  if digits.isEmpty || 9 < digits.length then .error .directive
  else .ok (Text.ofDigits digits, rest)

/-- Reads a directive after its percent sign. -/
def directive (src : Source) : Except Fault (Token × Source) := do
  let (name, rest) := src.spanText isWordChar
  if !rest.blankNext then throw .directive
  let (token, rest) ← match String.ofList name with
    | "YAML" => do
      let (major, rest) ← versionNumber rest.dropBlanks
      if !rest.starts '.' then throw .directive
      let (minor, rest) ← versionNumber (rest.drop 1)
      .ok (Token.version major minor, rest)
    | "TAG" => do
      let (handle, rest) ← tagHandle rest.dropBlanks
      if handle != ['!'] && handle.getLast? != some '!' then throw .directive
      if !rest.head?.any (Text.isIndent ·.char) then throw .directive
      let (meaning, rest) ← tagSuffix true rest.dropBlanks
      if meaning.isEmpty || !rest.blankNext then throw .directive
      .ok (Token.shorthand (String.ofList handle) (String.ofList meaning), rest)
    | _ => throw .directive
  let rest : Source := rest.dropBlanks
  let rest : Source := if rest.starts '#' then rest.dropWhile (!isBreak ·.char) else rest
  if rest.lineEnds then .ok (token, rest.dropBreak) else throw .directive

end Token

end Longform.Yaml
