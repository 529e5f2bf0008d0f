import Longform.Action
import Longform.Cache
import Longform.Store

/-!
# Resolving embeds

An embed is replaced by what it names: a note by its blocks, a section of a note
by the blocks its heading owns, an image by a figure. What is put in place of an
embed is resolved in turn, and its headings move under the heading that the
embed stands below. Whatever goes wrong with an embed is a warning, and nothing
is put in its place.

* `Resolver.walk` resolves the embeds of a forest, given how one embed is
  resolved.
* `Resolver.seek` finds what takes the place of one embed, without resolving it.
* `Resolver.embed` resolves one embed, following nested ones as far as its fuel
  lasts; an answer is there only when it did.
* `Resolver.unroll` resolves a forest under the limit that the resolver holds.
-/

namespace Longform

/-- A heading that is open where something is being resolved. -/
structure Frame where
  title : String
  level : Nat
  deriving DecidableEq

/-- The files and the works that resolved blocks refer to, in reading order and with
repetitions. -/
@[ext] structure References where
  mediaFiles : List Document
  citations : List String
  deriving DecidableEq, Inhabited

namespace References

def empty : References := ⟨[], []⟩

def append (a b : References) : References :=
  ⟨a.mediaFiles ++ b.mediaFiles, a.citations ++ b.citations⟩

instance : Append References := ⟨append⟩

@[simp] theorem mediaFiles_append (a b : References) :
    (a ++ b).mediaFiles = a.mediaFiles ++ b.mediaFiles := rfl

@[simp] theorem citations_append (a b : References) :
    (a ++ b).citations = a.citations ++ b.citations := rfl

@[simp] theorem empty_append (a : References) : empty ++ a = a := rfl

@[simp] theorem append_empty (a : References) : a ++ empty = a :=
  References.ext (List.append_nil _) (List.append_nil _)

theorem append_assoc (a b c : References) : a ++ b ++ c = a ++ (b ++ c) :=
  References.ext (List.append_assoc _ _ _) (List.append_assoc _ _ _)

end References

/-- Resolved blocks and what they refer to. -/
@[ext] structure Resolved where
  nodes : List Node
  references : References
  deriving Inhabited

namespace Resolved

/-- Nothing, which is put in the place of an embed that fails. -/
def empty : Resolved := ⟨[], .empty⟩

def append (a b : Resolved) : Resolved := ⟨a.nodes ++ b.nodes, a.references ++ b.references⟩

instance : Append Resolved := ⟨append⟩

@[simp] theorem nodes_append (a b : Resolved) : (a ++ b).nodes = a.nodes ++ b.nodes := rfl

@[simp] theorem references_append (a b : Resolved) :
    (a ++ b).references = a.references ++ b.references := rfl

@[simp] theorem empty_append (a : Resolved) : empty ++ a = a := rfl

@[simp] theorem append_empty (a : Resolved) : a ++ empty = a :=
  Resolved.ext (List.append_nil _) (References.append_empty _)

theorem append_assoc (a b c : Resolved) : a ++ b ++ c = a ++ (b ++ c) :=
  Resolved.ext (List.append_assoc _ _ _) (References.append_assoc _ _ _)

end Resolved

/-- The state in which embeds are resolved. -/
structure Resolver (σ : Type) where
  store : σ
  cache : Cache
  /-- The warnings so far, in order. -/
  warnings : List String
  /-- The open headings, innermost first. -/
  frames : List Frame
  /-- How deeply embeds may be nested. -/
  limit : Option Nat
  /-- How deeply the embed being resolved is nested. -/
  depth : Nat

namespace Resolver

variable {σ : Type}

/-- A resolver that has not begun. -/
def initial (store : σ) (cache : Cache) (limit : Option Nat) : Resolver σ :=
  ⟨store, cache, [], [], limit, 0⟩

/-- The level of the innermost open heading; zero when none is open. -/
def ambientLevel (r : Resolver σ) : Nat := (r.frames.head?.map Frame.level).getD 0

/-! ## Changes of the state -/

/-- With a heading opened. -/
def opened (r : Resolver σ) (frame : Frame) : Resolver σ := { r with frames := frame :: r.frames }

/-- With the innermost heading closed. -/
def closed (r : Resolver σ) : Resolver σ := { r with frames := r.frames.tail }

/-- Inside an embed. -/
def entered (r : Resolver σ) : Resolver σ := { r with depth := r.depth + 1 }

/-- After an embed. -/
def left (r : Resolver σ) : Resolver σ := { r with depth := r.depth - 1 }

/-- With further warnings, and the store as a search left it. -/
def searched (r : Resolver σ) (warnings : List String) (store : σ) : Resolver σ :=
  { r with store, warnings := r.warnings ++ warnings }

/-- With a further warning. -/
def warned (r : Resolver σ) (warning : String) : Resolver σ :=
  { r with warnings := r.warnings ++ [warning] }

/-- With the store as a read left it. -/
def withStore (r : Resolver σ) (store : σ) : Resolver σ := { r with store }

/-- With a note known under a name that has none. -/
def withNote (r : Resolver σ) (basename : String) (note : Note) : Resolver σ :=
  { r with cache := r.cache.add basename note }

/-- The limit that keeps a resolver from following one more embed. -/
def reachedLimit? (r : Resolver σ) : Option Nat := r.limit.filter (· ≤ r.depth)

/-- A step of resolving. It has no answer when the fuel for nested embeds ran out. -/
abbrev Step (σ : Type) := Action (Resolver σ)

variable [Store σ]

namespace Step

/-! ## Elementary steps -/

def warn (warning : String) : Step σ Unit := modify (·.warned warning)

/-- Searches the store, passing its warnings on. -/
def search (find : σ → Lookup × σ) : Step σ (Option Document) := do
  let r ← get
  let (lookup, store) := find r.store
  set (r.searched lookup.warnings store)
  return lookup.found

/-- The text of a document. -/
def readText (d : Document) : Step σ String := do
  let r ← get
  let (text, store) := Store.read d r.store
  set (r.withStore store)
  MonadExcept.ofExcept text

/-- The note of a document, as the document stands. -/
def readNote (d : Document) : Step σ Note := do
  MonadExcept.ofExcept (Note.parse (← readText d))

/-- The note of a document. It is read only if no note of its base name is known. -/
def load (d : Document) : Step σ Note := do
  match (← get).cache.find? d.basename with
  | some note => return note
  | none =>
    let note ← readNote d
    modify (·.withNote d.basename note)
    return note

/-- Takes a step with a heading open. -/
def under {α : Type} (frame : Frame) (step : Step σ α) : Step σ α := do
  modify (·.opened frame)
  let outcome ← Action.observe step
  modify closed
  MonadExcept.ofExcept outcome

/-- Takes a step inside an embed. -/
def nested {α : Type} (step : Step σ α) : Step σ α := do
  modify entered
  let outcome ← Action.observe step
  modify left
  MonadExcept.ofExcept outcome

end Step

/-! ## Forests -/

mutual

/-- Resolves the embeds of one block. -/
def walkOne (embed : Link → Step σ Resolved) : Node → Step σ Resolved
  | .heading level title children => do
    let inner ← Step.under ⟨Inline.plainText title, level⟩ (walk embed children)
    return ⟨[.heading level title inner.nodes], ⟨[], Inline.citationKeys title⟩ ++ inner.references⟩
  | .paragraph content => return ⟨[.paragraph content], ⟨[], Inline.citationKeys content⟩⟩
  | .list kind items => do
    let (items, references) ← walkItems embed items
    return ⟨[.list kind items], references⟩
  | .embed link => embed link
  | .figure file caption => return ⟨[.figure file caption], .empty⟩
  | .code language content => return ⟨[.code language content], .empty⟩
  | .quote lines => return ⟨[.quote lines], .empty⟩
  | .displayMath text => return ⟨[.displayMath text], .empty⟩

/-- Resolves the embeds of a forest. -/
def walk (embed : Link → Step σ Resolved) : List Node → Step σ Resolved
  | [] => return .empty
  | n :: ns => do
    let first ← walkOne embed n
    let rest ← walk embed ns
    return first ++ rest

/-- Resolves the embeds in the items of a list. -/
def walkItems (embed : Link → Step σ Resolved) :
    List (List Node) → Step σ (List (List Node) × References)
  | [] => return ([], .empty)
  | item :: items => do
    let first ← walk embed item
    let (rest, references) ← walkItems embed items
    return (first.nodes :: rest, first.references ++ references)

end

/-! ## Embeds -/

/-- The warning that embeds are nested too deeply. -/
def depthWarning (limit : Nat) (address : String) : String :=
  "Embed depth limit " ++ toString limit ++ " exceeded while resolving " ++ address

/-- The warning that a note could not be read. -/
def loadWarning (address : String) (e : Error) : String :=
  "Could not load " ++ address ++ ": " ++ e.message

/-- The warning that a note has no such heading. -/
def headingWarning (title address : String) : String :=
  "Header not found: " ++ title ++ " in file with address " ++ address

/-- What takes the place of an embed. -/
inductive Target where
  /-- Blocks in which nothing is left to resolve: a figure, or none where an embed fails. -/
  | done (resolved : Resolved)
  /-- Blocks of a note, to be resolved below a heading. -/
  | content (frame : Frame) (nodes : List Node)

/-- The figure that an image is put in as. -/
def image (link : Link) : Step σ Target := do
  match ← Step.search (Store.findImage link.address) with
  | none => return .done .empty
  | some file => return .done ⟨[.figure file link.label], ⟨[file], []⟩⟩

/-- What a link means in a note: a heading and its blocks, or all blocks of the note under a heading
of level zero that is called like the note. -/
def target? (link : Link) (d : Document) (note : Note) : Option (Frame × List Node) :=
  match link.heading with
  | none => some (⟨d.basename, 0⟩, note.body)
  | some title => (Node.findHeading? title note.body).map fun h => (⟨title, h.level⟩, h.children)

/-- The blocks of a note that a link means, `load` telling how a note is come by. -/
def note (load : Document → Step σ Note) (link : Link) : Step σ Target := do
  match ← Step.search (Store.find link.address) with
  | none => return .done .empty
  | some d =>
    match ← Action.observe (load d) with
    | .error e =>
      Step.warn (loadWarning link.address e)
      return .done .empty
    | .ok note =>
      match target? link d note with
      | none =>
        Step.warn (headingWarning (link.heading.getD "") link.address)
        return .done .empty
      | some (frame, content) => return .content frame content

/-- Finds what takes the place of an embed. -/
def seek (load : Document → Step σ Note) (link : Link) : Step σ Target := do
  if isImageAddress link.address then image link
  else
    match (← get).reachedLimit? with
    | some limit =>
      Step.warn (depthWarning limit link.address)
      return .done .empty
    | none => note load link

/-- Resolves the blocks that a link means and moves them under the innermost open heading. -/
def splice (walk : List Node → Step σ Resolved) (frame : Frame) (content : List Node) :
    Step σ Resolved := do
  let ambient := (← get).ambientLevel
  let inner ← Step.under frame (Step.nested (walk content))
  return { inner with nodes := Node.rebase frame.level ambient inner.nodes }

/-- Resolves an embed. Each unit of fuel lets embeds be nested once more. -/
def embed (load : Document → Step σ Note) : (fuel : Nat) → (link : Link) → Step σ Resolved
  | 0, _ => Action.diverge
  | fuel + 1, link => do
    match ← seek load link with
    | .done resolved => return resolved
    | .content frame content => splice (walk (embed load fuel)) frame content

/-- The fuel of a resolver without a limit, which no vault without a cycle of embeds uses up. -/
def boundlessFuel : Nat := Nat.pow 2 62

/-- The fuel that a resolver needs at most. -/
def fuel (r : Resolver σ) : Nat := r.limit.elim boundlessFuel fun limit => limit - r.depth + 1

/-- Resolves the embeds of a forest, `load` telling how a note is come by. -/
def unrollBy (load : Document → Step σ Note) (nodes : List Node) : Step σ Resolved := do
  let r ← get
  walk (embed load r.fuel) nodes

/-- Resolves the embeds of a forest. Every note is read once. -/
def unroll (nodes : List Node) : Step σ Resolved := unrollBy Step.load nodes

/-- Resolves one embed. -/
def resolveEmbed (link : Link) : Step σ Resolved := do
  let r ← get
  embed Step.load r.fuel link

end Resolver

end Longform
