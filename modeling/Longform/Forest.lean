import Longform.Node

/-!
# Forests of headings

`Node.nest` makes the forest of a list of blocks, and `Node.findHeading?` finds a
section in it.
-/

namespace Longform.Node

/-! ## Making the forest -/

/-- Whether a block ends the section of a heading of the given level: it is a heading itself, and
not a deeper one. -/
def endsSection (level : Nat) : Node → Bool
  | .heading l _ _ => l ≤ level
  | _ => false

/-- The blocks, in reading order, that belong to a heading of the given level standing before
them. -/
def owned (level : Nat) (blocks : List Node) : List Node :=
  blocks.takeWhile fun b => !endsSection level b

/-- The blocks after the ones that belong to a heading of the given level. -/
def unowned (level : Nat) (blocks : List Node) : List Node :=
  blocks.dropWhile fun b => !endsSection level b

theorem owned_append_unowned (level : Nat) (blocks : List Node) :
    owned level blocks ++ unowned level blocks = blocks :=
  List.takeWhile_append_dropWhile

theorem length_owned_le (level : Nat) (blocks : List Node) :
    (owned level blocks).length ≤ blocks.length :=
  (List.takeWhile_sublist _).length_le

theorem length_unowned_le (level : Nat) (blocks : List Node) :
    (unowned level blocks).length ≤ blocks.length :=
  (List.dropWhile_sublist _).length_le

/-- The forest of a list of blocks: each heading owns the blocks after it up to the next heading
whose level is not greater. -/
def nest (blocks : List Node) : List Node :=
  match blocks with
  | [] => []
  | .heading level title children :: rest =>
    .heading level title (children ++ nest (owned level rest)) :: nest (unowned level rest)
  | block :: rest => block :: nest rest
termination_by blocks.length
decreasing_by
  · exact Nat.lt_succ_of_le (length_owned_le level rest)
  · exact Nat.lt_succ_of_le (length_unowned_le level rest)
  · exact Nat.lt_succ_self rest.length

/-! ## Finding a section -/

mutual

/-- `findHeading?` in one block. -/
def findInOne? (wanted : String) : Node → Option Heading
  | .heading level title children =>
    if (Heading.mk level title children).normalizedTitle = wanted then
      some ⟨level, title, children⟩
    else findNormalized? wanted children
  | _ => none

/-- The first heading in reading order whose title has the normalized form `wanted`. -/
def findNormalized? (wanted : String) : List Node → Option Heading
  | [] => none
  | n :: ns =>
    match findInOne? wanted n with
    | some h => some h
    | none => findNormalized? wanted ns

end

/-- The first heading in reading order with the given title, up to case and blanks at the ends. -/
def findHeading? (title : String) (nodes : List Node) : Option Heading :=
  findNormalized? (normalizeTitle title) nodes

end Longform.Node
