import Mathlib.Data.List.Flatten
import Mathlib.Data.List.Perm.Basic
import Longform.Proofs.Descent
import Longform.Proofs.Levels

/-!
# Where the blocks of a note go

The division of a note into its regions loses nothing but what it is meant to
lose. Each block of the top level goes to one place: into the abstract, into the
appendix, into the body, or nowhere when it is a heading of a region that a later
heading opens again.

* `Sections.place` and `Sections.sent`: the place of a block by the blocks after it,
  and the blocks that go to a place.
* `Sections.lastTitled?_eq_some_iff`: the heading of a region is the last one with
  its title.
* `Sections.divides_classify`: the regions hold the blocks that are sent there, and
  the blocks in them that are no headings are those of the note, each as often as it
  stands there and in its order.
-/

namespace Longform

namespace Node

/-! ## Blocks that are no headings -/

/-- The blocks of a forest that are no headings, in reading order; lists stay whole. -/
def leaves (nodes : List Node) : List Node := (flatten nodes).filter fun n => n.level?.isNone

theorem leaves_nil : leaves [] = [] := by
  rw [leaves, flatten_nil, List.filter_nil]

theorem leaves_append (a b : List Node) : leaves (a ++ b) = leaves a ++ leaves b := by
  rw [leaves, flatten_append, List.filter_append, leaves, leaves]

theorem leaves_heading (level : Nat) (title : List Inline) (children nodes : List Node) :
    leaves (.heading level title children :: nodes) = leaves children ++ leaves nodes := by
  rw [leaves, flatten_heading, List.filter_cons_of_neg (by simp [level?]), List.filter_append,
    leaves, leaves]

theorem leaves_cons_of_level? {n : Node} (h : n.level? = none) (nodes : List Node) :
    leaves (n :: nodes) = n :: leaves nodes := by
  rw [leaves, flatten_cons_of_level? h, List.filter_cons_of_pos (by simp [h]), leaves]

theorem leaves_cons (n : Node) (nodes : List Node) :
    leaves (n :: nodes) = leaves [n] ++ leaves nodes :=
  leaves_append [n] nodes

/-- To shift headings does nothing to other blocks. -/
theorem leaves_relevelOuter (f : Nat → Nat) (nodes : List Node) :
    leaves (relevelOuter f nodes) = leaves nodes := by
  induction nodes using headingInduction with
  | nil => rw [relevelOuter]
  | heading level title children nodes ihChildren ihNodes =>
    rw [relevelOuter, relevelOuterOne, leaves_heading, leaves_heading, ihChildren, ihNodes]
  | other n nodes other ih =>
    rw [relevelOuter, relevelOuterOne_of_level? f other, leaves_cons_of_level? other,
      leaves_cons_of_level? other, ih]

theorem leaves_toNode (h : Heading) : leaves [h.toNode] = leaves h.children := by
  rw [Heading.toNode, leaves_heading, leaves_nil, List.append_nil]

theorem leaves_eq_flatMap (nodes : List Node) :
    leaves nodes = nodes.flatMap fun n => leaves [n] := by
  induction nodes with
  | nil => exact leaves_nil
  | cons n nodes ih => rw [leaves_cons, ih, List.flatMap_cons]

theorem leaves_perm {a b : List Node} (h : a.Perm b) : (leaves a).Perm (leaves b) := by
  rw [leaves_eq_flatMap a, leaves_eq_flatMap b]
  exact h.flatMap_right _

theorem leaves_sublist {a b : List Node} (h : a.Sublist b) : (leaves a).Sublist (leaves b) := by
  rw [leaves_eq_flatMap a, leaves_eq_flatMap b]
  exact h.flatMap _

end Node

namespace Sections

open Node (leaves relevelOuter)

variable {wanted : String} {n : Node} {h : Heading} {nodes later : List Node}

/-! ## Headings of regions -/

/-- Whether a block is a heading with the given region title. -/
def isTitled (wanted : String) (n : Node) : Bool := (titled? wanted n).isSome

theorem titled?_eq_some_iff :
    titled? wanted n = some h ↔ n = h.toNode ∧ regionTitle h.title = wanted := by
  constructor
  · intro titled
    refine ⟨eq_of_titled? titled, ?_⟩
    cases n with
    | heading level title children =>
      rw [titled?] at titled
      split at titled
      · next same =>
        cases titled
        exact same
      · cases titled
    | _ => cases titled
  · rintro ⟨rfl, same⟩
    rw [Heading.toNode, titled?, if_pos same]

theorem titled?_eq_none_iff : titled? wanted n = none ↔ isTitled wanted n = false := by
  rw [isTitled, Option.isSome_eq_false_iff, Option.isNone_iff_eq_none]

/-- No heading has two region titles. -/
theorem isTitled_of_ne {other : String} (titled : isTitled wanted n = true) (ne : wanted ≠ other) :
    isTitled other n = false := by
  obtain ⟨h, titled⟩ := Option.isSome_iff_exists.1 titled
  obtain ⟨rfl, same⟩ := titled?_eq_some_iff.1 titled
  rw [← titled?_eq_none_iff, Heading.toNode, titled?, same, if_neg ne]

/-- The heading is the last of the blocks with the given region title. -/
def IsLastTitled (wanted : String) (nodes : List Node) (h : Heading) : Prop :=
  regionTitle h.title = wanted ∧ ∃ before later, nodes = before ++ h.toNode :: later ∧
    ∀ h' : Heading, h'.toNode ∈ later → regionTitle h'.title ≠ wanted

theorem lastTitled?_cons (wanted : String) (n : Node) (nodes : List Node) :
    lastTitled? wanted (n :: nodes) = (lastTitled? wanted nodes).or (titled? wanted n) := by
  rw [lastTitled?, lastTitled?, List.filterMap_cons]
  rcases titled? wanted n with _ | h
  · rw [Option.or_none]
  · rw [List.getLast?_cons]
    rcases (nodes.filterMap (titled? wanted)).getLast? with _ | last
    · rfl
    · rfl

theorem isSome_lastTitled? (wanted : String) (nodes : List Node) :
    (lastTitled? wanted nodes).isSome = nodes.any (isTitled wanted) := by
  induction nodes with
  | nil => rfl
  | cons n nodes ih =>
    rw [lastTitled?_cons, Option.isSome_or, ih, List.any_cons, isTitled, Bool.or_comm]

theorem lastTitled?_eq_none_iff :
    lastTitled? wanted nodes = none ↔
      ∀ h : Heading, h.toNode ∈ nodes → regionTitle h.title ≠ wanted := by
  rw [← Option.not_isSome_iff_eq_none, isSome_lastTitled?, List.any_eq_true]
  constructor
  · intro none h mem same
    refine none ⟨h.toNode, mem, ?_⟩
    rw [isTitled, titled?_eq_some_iff.2 ⟨rfl, same⟩, Option.isSome_some]
  · rintro others ⟨n, mem, titled⟩
    obtain ⟨h, titled⟩ := Option.isSome_iff_exists.1 titled
    obtain ⟨rfl, same⟩ := titled?_eq_some_iff.1 titled
    exact others h mem same

/-- The heading of a region is the last one with its title. -/
theorem lastTitled?_eq_some_iff :
    lastTitled? wanted nodes = some h ↔ IsLastTitled wanted nodes h := by
  induction nodes with
  | nil =>
    constructor
    · intro none
      cases none
    · rintro ⟨-, before, later, none, -⟩
      cases before <;> cases none
  | cons n nodes ih =>
    rw [lastTitled?_cons, Option.or_eq_some_iff, ih, lastTitled?_eq_none_iff, titled?_eq_some_iff]
    constructor
    · rintro (⟨same, before, later, rfl, others⟩ | ⟨others, rfl, same⟩)
      · exact ⟨same, n :: before, later, rfl, others⟩
      · exact ⟨same, [], nodes, rfl, others⟩
    · rintro ⟨same, before, later, whole, others⟩
      cases before with
      | nil =>
        cases whole
        exact Or.inr ⟨others, rfl, same⟩
      | cons first before =>
        cases whole
        exact Or.inl ⟨same, before, later, rfl, others⟩

/-! ## Places -/

/-- Where a block of the top level goes. -/
inductive Place where
  | abstractPart
  | appendix
  | body
  | nowhere
  deriving DecidableEq

/-- The place that the block `n` goes to when the blocks `later` follow it. -/
def place (later : List Node) (n : Node) : Place :=
  if isTitled "abstract" n then
    if later.any (isTitled "abstract") then .nowhere else .abstractPart
  else if isTitled "appendix" n then
    if later.any (isTitled "appendix") then .nowhere else .appendix
  else .body

/-- The blocks that go to a place of the given kind. -/
def sent (p : Place → Bool) : List Node → List Node
  | [] => []
  | n :: later => if p (place later n) then n :: sent p later else sent p later

theorem sent_sublist {p q : Place → Bool} (wider : ∀ x, p x = true → q x = true)
    (nodes : List Node) : (sent p nodes).Sublist (sent q nodes) := by
  induction nodes with
  | nil => exact .refl _
  | cons n later ih =>
    rw [sent, sent]
    split
    · next here =>
      rw [if_pos (wider _ here)]
      exact ih.cons_cons n
    · split
      · exact ih.cons n
      · exact ih

/-- All blocks go somewhere or nowhere. -/
theorem sent_anywhere (nodes : List Node) : sent (fun _ => true) nodes = nodes := by
  induction nodes with
  | nil => rfl
  | cons n later ih => rw [sent, if_pos rfl, ih]

/-- Blocks that go to one of several places go to the one place or to the others. -/
theorem sent_perm (p q : Place → Bool) (nodes : List Node) :
    (sent p nodes).Perm
      (sent (fun x => p x && q x) nodes ++ sent (fun x => p x && !q x) nodes) := by
  induction nodes with
  | nil => exact .refl _
  | cons n later ih =>
    rw [sent, sent, sent]
    rcases p (place later n) with _ | _
    · exact ih
    · rcases q (place later n) with _ | _
      · exact (ih.cons n).trans List.perm_middle.symm
      · exact ih.cons n

/-! ## What goes to a place -/

theorem place_eq_abstract_iff :
    place later n = .abstractPart ↔
      isTitled "abstract" n = true ∧ later.any (isTitled "abstract") = false := by
  rw [place]
  split
  · next titled => split <;> simp_all
  · next other => split <;> (try split) <;> simp_all

theorem place_eq_appendix_iff :
    place later n = .appendix ↔
      isTitled "appendix" n = true ∧ later.any (isTitled "appendix") = false := by
  have apart : isTitled "abstract" n = true → isTitled "appendix" n = false :=
    fun titled => isTitled_of_ne titled (by decide)
  rw [place]
  split
  · next titled => split <;> simp_all
  · next other => split <;> (try split) <;> simp_all

theorem place_eq_body_iff :
    place later n = .body ↔ isTitled "abstract" n = false ∧ isTitled "appendix" n = false := by
  rw [place]
  split
  · next titled => split <;> simp_all
  · next other => split <;> (try split) <;> simp_all

/-- To a region goes the last heading with its title. -/
theorem sent_region {p : Place}
    (goes : ∀ later n, place later n = p ↔
      isTitled wanted n = true ∧ later.any (isTitled wanted) = false) (nodes : List Node) :
    sent (· = p) nodes = ((lastTitled? wanted nodes).map Heading.toNode).toList := by
  induction nodes with
  | nil => rfl
  | cons n later ih =>
    rw [sent, lastTitled?_cons, ih]
    by_cases here : place later n = p
    · obtain ⟨titled, last⟩ := (goes later n).1 here
      obtain ⟨h, titled⟩ := Option.isSome_iff_exists.1 titled
      rw [← isSome_lastTitled?, Option.isSome_eq_false_iff, Option.isNone_iff_eq_none] at last
      obtain ⟨rfl, -⟩ := titled?_eq_some_iff.1 titled
      simp [here, last, titled]
    · rcases found : lastTitled? wanted later with _ | last
      · have untitled : titled? wanted n = none := by
          rw [titled?_eq_none_iff]
          refine eq_false_of_ne_true fun titled => here ((goes later n).2 ⟨titled, ?_⟩)
          rw [← isSome_lastTitled?, found, Option.isSome_none]
        simp [here, untitled]
      · simp [here]

/-- To the body goes what opens no other region. -/
theorem sent_body (nodes : List Node) :
    sent (· = .body) nodes = withoutTitled "appendix" (withoutTitled "abstract" nodes) := by
  rw [withoutTitled, withoutTitled, List.filter_filter]
  induction nodes with
  | nil => rfl
  | cons n later ih =>
    rw [sent, List.filter_cons, ih]
    congr 1
    rw [decide_eq_true_eq, place_eq_body_iff, isTitled, isTitled, Bool.and_eq_true]
    simp [and_comm]

/-! ## What stands in the body -/

/-- A heading titled "Body" gives way to what it owns, one level higher. -/
theorem openBody_heading {level : Nat} {title : List Inline} {children : List Node}
    (isBody : regionTitle title = "body") :
    openBody (.heading level title children) = relevelOuter (· - 1) children := by
  rw [openBody, titled?, if_pos isBody, ← Node.lower_eq_relevelOuter]

theorem openBody_of_not_titled (other : isTitled "body" n = false) : openBody n = [n] := by
  rw [openBody, titled?_eq_none_iff.2 other]

theorem leaves_openBody (n : Node) : leaves (openBody n) = leaves [n] := by
  rcases titled : isTitled "body" n with _ | _
  · rw [openBody_of_not_titled titled]
  · obtain ⟨h, titled⟩ := Option.isSome_iff_exists.1 titled
    obtain ⟨rfl, isBody⟩ := titled?_eq_some_iff.1 titled
    rw [Node.leaves_toNode, Heading.toNode, openBody_heading isBody, Node.leaves_relevelOuter]

theorem leaves_flatMap_openBody (nodes : List Node) :
    leaves (nodes.flatMap openBody) = leaves nodes := by
  induction nodes with
  | nil => rfl
  | cons n nodes ih =>
    rw [List.flatMap_cons, Node.leaves_append, leaves_openBody, ih, ← Node.leaves_cons]

/-- Headings of other regions do not matter to which one comes last. -/
theorem lastTitled?_withoutTitled {other : String} (ne : wanted ≠ other) (nodes : List Node) :
    lastTitled? wanted (withoutTitled other nodes) = lastTitled? wanted nodes := by
  induction nodes with
  | nil => rfl
  | cons n nodes ih =>
    rw [withoutTitled, List.filter_cons, lastTitled?_cons, ← ih, ← withoutTitled]
    split
    · exact lastTitled?_cons wanted n _
    · next titled =>
      rw [← Option.isSome_eq_false_iff, Bool.not_eq_false] at titled
      rw [titled?_eq_none_iff.2 (isTitled_of_ne titled ne.symm), Option.or_none]

/-! ## The division -/

/-- What the heading of a region owns. -/
def owned (h : Option Heading) : List Node := h.elim [] Heading.children

/-- The regions `s` are those of a note with the given blocks at its top level. -/
structure Divides (nodes : List Node) (s : Sections) : Prop where
  /-- Each block goes to one place. -/
  places : nodes.Perm (sent (· = .abstractPart) nodes ++ sent (· = .body) nodes ++
    sent (· = .appendix) nodes ++ sent (· = .nowhere) nodes)
  /-- The order of the blocks is that of the note. -/
  order : ∀ p, (sent p nodes).Sublist nodes
  abstractLast : ∀ h, s.abstractHeading = some h ↔ IsLastTitled "abstract" nodes h
  abstractPart : sent (· = .abstractPart) nodes = (s.abstractHeading.map Heading.toNode).toList
  appendixLast : ∀ h, s.appendixHeading = some h ↔ IsLastTitled "appendix" nodes h
  appendix : sent (· = .appendix) nodes = (s.appendixHeading.map Heading.toNode).toList
  body : s.body = (sent (· = .body) nodes).flatMap openBody
  /-- A heading titled "Body" stands for what it owns, one level higher, -/
  opened : ∀ level title children, regionTitle title = "body" →
    openBody (.heading level title children) = relevelOuter (· - 1) children
  /-- and any other block for itself. -/
  unopened : ∀ n, isTitled "body" n = false → openBody n = [n]
  bodyHeading : ∀ b, s.bodyHeading = some b ↔
    ∃ h, IsLastTitled "body" nodes h ∧ b = ⟨h.level - 1, h.title, []⟩
  /-- The regions hold the other blocks of the note, each as often as it stands there, -/
  leaves : (Node.leaves (sent (· ≠ .nowhere) nodes)).Perm
    (Node.leaves (owned s.abstractHeading) ++ Node.leaves s.body ++
      Node.leaves (owned s.appendixHeading))
  /-- and each region in the order of the note. -/
  leavesInOrder : ∀ region ∈ [owned s.abstractHeading, s.body, owned s.appendixHeading],
    (Node.leaves region).Sublist (Node.leaves (sent (· ≠ .nowhere) nodes))

theorem sent_places (nodes : List Node) :
    (sent (· ≠ .nowhere) nodes).Perm (sent (· = .abstractPart) nodes ++ sent (· = .body) nodes ++
      sent (· = .appendix) nodes) := by
  induction nodes with
  | nil => exact .refl _
  | cons n later ih =>
    simp only [sent]
    cases place later n with
    | abstractPart => exact ih.cons n
    | body => exact (ih.cons n).trans (List.perm_middle.symm.append_right _)
    | appendix => exact (ih.cons n).trans List.perm_middle.symm
    | nowhere => exact ih

theorem leaves_of_region {h : Option Heading} {p : Place}
    (region : sent (· = p) nodes = (h.map Heading.toNode).toList) :
    Node.leaves (owned h) = Node.leaves (sent (· = p) nodes) := by
  rw [region]
  cases h with
  | none => rfl
  | some h => exact (Node.leaves_toNode h).symm

/-- What goes nowhere comes on top of what goes into a region. -/
theorem perm_sent (nodes : List Node) :
    nodes.Perm (sent (· = .abstractPart) nodes ++ sent (· = .body) nodes ++
      sent (· = .appendix) nodes ++ sent (· = .nowhere) nodes) := by
  have split := sent_perm (fun _ => true) (· ≠ .nowhere) nodes
  rw [sent_anywhere] at split
  refine split.trans ?_
  simp only [Bool.true_and, ne_eq, decide_not, Bool.not_not]
  have kept := sent_places nodes
  simp only [ne_eq, decide_not] at kept
  exact kept.append_right _

theorem bodyHeading_classify_eq_some_iff (b : Heading) :
    (classify nodes).bodyHeading = some b ↔
      ∃ h, IsLastTitled "body" nodes h ∧ b = ⟨h.level - 1, h.title, []⟩ := by
  rw [classify]
  dsimp only
  rw [lastTitled?_withoutTitled (by decide), lastTitled?_withoutTitled (by decide),
    Option.map_eq_some_iff]
  constructor
  · rintro ⟨h, last, rfl⟩
    exact ⟨h, lastTitled?_eq_some_iff.1 last, rfl⟩
  · rintro ⟨h, last, rfl⟩
    exact ⟨h, lastTitled?_eq_some_iff.2 last, rfl⟩

/-- A note is divided into its regions without loss. Each block of the top level goes to one place:
the last heading with the title of the abstract or of the appendix makes that region, with all it
owns; an earlier one goes nowhere; any other block goes into the body, where a heading titled "Body"
gives way to what it owns, one level higher. So the regions hold the blocks that are no headings and
were not under a heading that went nowhere, each as often as the note does and in its order, and
nothing else. -/
theorem divides_classify (nodes : List Node) : Divides nodes (classify nodes) := by
  have abstractPart :
      sent (· = .abstractPart) nodes = ((lastTitled? "abstract" nodes).map Heading.toNode).toList :=
    sent_region (fun _ _ => place_eq_abstract_iff) nodes
  have appendix :
      sent (· = .appendix) nodes = ((lastTitled? "appendix" nodes).map Heading.toNode).toList :=
    sent_region (fun _ _ => place_eq_appendix_iff) nodes
  have body : (classify nodes).body = (sent (· = .body) nodes).flatMap openBody := by
    rw [classify, sent_body]
  have inAbstract := leaves_of_region abstractPart
  have inAppendix := leaves_of_region appendix
  have inBody : Node.leaves (classify nodes).body = Node.leaves (sent (· = .body) nodes) := by
    rw [body, leaves_flatMap_openBody]
  have ordered : ∀ p, p ≠ .nowhere →
      (Node.leaves (sent (· = p) nodes)).Sublist (Node.leaves (sent (· ≠ .nowhere) nodes)) := by
    intro p somewhere
    refine Node.leaves_sublist (sent_sublist (fun x here => ?_) nodes)
    rw [decide_eq_true_eq] at here ⊢
    rwa [here]
  refine ⟨perm_sent nodes, ?_, fun _ => lastTitled?_eq_some_iff, abstractPart,
    fun _ => lastTitled?_eq_some_iff, appendix, body, fun _ _ _ => openBody_heading,
    fun _ => openBody_of_not_titled, bodyHeading_classify_eq_some_iff, ?_, ?_⟩
  · intro p
    have sub := sent_sublist (p := p) (q := fun _ => true) (fun _ _ => rfl) nodes
    rwa [sent_anywhere] at sub
  · have whole := Node.leaves_perm (sent_places nodes)
    rw [Node.leaves_append, Node.leaves_append, ← inAbstract, ← inBody, ← inAppendix] at whole
    exact whole
  · intro region among
    simp only [List.mem_cons, List.not_mem_nil, or_false] at among
    rcases among with rfl | rfl | rfl
    · change (Node.leaves (owned (lastTitled? "abstract" nodes))).Sublist _
      rw [inAbstract]
      exact ordered _ (by decide)
    · rw [inBody]
      exact ordered _ (by decide)
    · change (Node.leaves (owned (lastTitled? "appendix" nodes))).Sublist _
      rw [inAppendix]
      exact ordered _ (by decide)

end Sections

end Longform
