import Longform.Inline
import Longform.Text.Alphanumeric

/-!
# Reading inline text

Inline text is read from left to right. Where a span opens and its closing mark
is found, the span is taken whole; everything else is literal text, and so is an
opening mark whose partner is missing. A backslash makes the punctuation
character after it literal.

The inside of emphasis is inline text again, read on its own. `span?_shorter`
says why reading ends: a span leaves less text than it found, and its inside is
shorter still.
-/

namespace Longform.Inline

open Text

/-! ## Emphasis marks -/

/-- The mark around emphasised text: one or two of the same character. -/
structure Mark where
  char : Char
  double : Bool

namespace Mark

/-- The mark as it is written, except for its first character. -/
def tail (m : Mark) : List Char := if m.double then [m.char] else []

/-- The mark as it is written. -/
def written (m : Mark) : List Char := m.char :: m.tail

/-- Whether the mark closes between `inner`, given with its last character first, and `rest`.
It has to follow text that is not blank; a single mark is not the first half of a double one; and
underscores close only at the end of a word. -/
def closes (m : Mark) (inner rest : List Char) : Bool :=
  !inner.isEmpty && !startsIn isBlank inner
    && !(!m.double && startsIn (· == m.char) rest)
    && !(m.char == '_' && startsIn isAlphanumeric rest)

/-- The text up to the first place where the mark closes, and the text after the mark. A mark that
does not close is passed over whole. `inner` is what has been passed so far, last character
first. -/
def findClose (m : Mark) (inner : List Char) (s : List Char) : Option (List Char × List Char) :=
  match s with
  | [] => none
  | c :: t =>
    match _h : after? m.written (c :: t) with
    | some rest =>
      if m.closes inner rest then some (inner.reverse, rest)
      else findClose m (m.written.reverse ++ inner) rest
    | none => findClose m (c :: inner) t
termination_by s.length
decreasing_by
  · have := congrArg List.length (after?_eq_some _h)
    simp only [written, List.length_append, List.length_cons] at this ⊢
    omega
  · simp

/-- The inside of emphasis that opens right before `body`, and the text after its closing mark.
Underscores open only at the beginning of a word, and no mark opens before a blank. -/
def body? (m : Mark) (prev : Option Char) (body : List Char) : Option (List Char × List Char) :=
  if (m.char == '_' && prev.any isAlphanumeric) || startsIn isBlank body then none
  else m.findClose [] body

theorem length_of_findClose {m : Mark} {inner s a b : List Char}
    (h : m.findClose inner s = some (a, b)) : a.length + b.length < inner.length + s.length := by
  fun_induction findClose m inner s with
  | case1 => simp at h
  | case2 inner c t rest hr _ =>
    obtain ⟨rfl, rfl⟩ := Prod.mk.inj (Option.some.inj h)
    have := congrArg List.length (after?_eq_some hr)
    simp only [written, List.length_append, List.length_cons, List.length_reverse] at this ⊢
    omega
  | case3 inner c t rest hr _ ih =>
    have := congrArg List.length (after?_eq_some hr)
    have := ih h
    simp only [List.length_append, List.length_cons, List.length_reverse] at *
    omega
  | case4 inner c t _ ih =>
    have := ih h
    simp only [List.length_cons] at *
    omega

theorem length_of_body? {m : Mark} {prev : Option Char} {s a b : List Char}
    (h : m.body? prev s = some (a, b)) : a.length + b.length < s.length := by
  unfold body? at h
  split at h
  · simp at h
  · simpa using length_of_findClose h

end Mark

/-! ## Spans without inline text inside -/

/-- The body of inline math and the text after it. A dollar sign after a backslash or a blank does
not close. `inner` is what has been passed so far, last character first. -/
def mathBody? (inner : List Char) : (s : List Char) → Option (List Char × List Char)
  | [] => none
  | c :: s =>
    if c = '$' ∧ ¬startsIn (· == '\\') inner ∧ ¬startsIn isBlank inner then
      some (inner.reverse, s)
    else mathBody? (c :: inner) s

theorem length_of_mathBody? {inner s a b : List Char} (h : mathBody? inner s = some (a, b)) :
    b.length < s.length := by
  fun_induction mathBody? inner s with
  | case1 => simp at h
  | case2 => simp_all
  | case3 inner c s _ ih => have := ih h; simp only [List.length_cons]; omega

/-- The key of one part of a citation: what follows the at sign, up to a blank or a comma. -/
def citationKey? (part : List Char) : Option String :=
  match after? ['@'] (trim part) with
  | none => none
  | some key =>
    match key.takeWhile fun c => !isBlank c && c ≠ ',' with
    | [] => none
    | c :: cs => some (String.ofList (c :: cs))

/-- A citation that opens right before `rest`. -/
def citation? (rest : List Char) : Option (Inline × List Char) := do
  let (inner, after) ← cut? [']'] rest
  let keys ← (splitOn ';' inner).mapM citationKey?
  some (.citation keys, after)

/-- A link that opens right before `rest`; it does not run over the end of a line. -/
def link? (rest : List Char) : Option (Inline × List Char) := do
  let (inner, after) ← cut? [']', ']'] rest
  if inner.contains '\n' then none else
    let link ← Link.parse? inner
    some (.link link, after)

/-- A code span that opens right before `rest`. -/
def code? (rest : List Char) : Option (Inline × List Char) := do
  let (inner, after) ← cut? ['`'] rest
  if inner.isEmpty then none else some (.code (String.ofList inner), after)

/-- Inline math that opens right before `rest`. -/
def math? (rest : List Char) : Option (Inline × List Char) :=
  if rest.isEmpty || startsIn isBlank rest || startsIn (· == '$') rest then none
  else (mathBody? [] rest).map fun (body, after) => (.math (String.ofList body), after)

/-! ## Spans -/

/-- What opens at some place of a text. -/
inductive Opening where
  /-- A span that is read as a whole, and the character that closes it. -/
  | leaf (span : Inline) (closer : Char)
  /-- Emphasis around inline text that is still to be read. -/
  | marked (mark : Mark) (body : List Char)

/-- The character that closes what has opened. -/
def Opening.closer : Opening → Char
  | .leaf _ closer => closer
  | .marked mark _ => mark.char

private def leaf (closer : Char) (found : Option (Inline × List Char)) :
    Option (Opening × List Char) :=
  found.map fun (span, rest) => (.leaf span closer, rest)

private def marked (mark : Mark) (prev : Option Char) (s : List Char) :
    Option (Opening × List Char) :=
  (mark.body? prev s).map fun (body, rest) => (.marked mark body, rest)

/-- The span that opens at the beginning of `s`, if its closing mark is found, and the text after
it; `prev` is the character before `s`. Two emphasis characters in a row are always a double
mark. -/
def span? (prev : Option Char) (s : List Char) : Option (Opening × List Char) :=
  match s with
  | '!' :: '[' :: '[' :: t => leaf ']' (link? t)
  | '[' :: '[' :: t => leaf ']' (link? t)
  | '[' :: '@' :: t => leaf ']' (citation? ('@' :: t))
  | '`' :: t => leaf '`' (code? t)
  | '$' :: t => leaf '$' (math? t)
  | '*' :: '*' :: t => marked ⟨'*', true⟩ prev t
  | '_' :: '_' :: t => marked ⟨'_', true⟩ prev t
  | '*' :: t => marked ⟨'*', false⟩ prev t
  | '_' :: t => marked ⟨'_', false⟩ prev t
  | _ => none

private theorem length_of_leaf {closer : Char} {found : Option (Inline × List Char)} {o r}
    {n : Nat} (h : leaf closer found = some (o, r)) (hn : ∀ i, found = some (i, r) → r.length < n) :
    r.length < n ∧ ∀ m body, o = .marked m body → body.length < n := by
  obtain ⟨⟨i, r'⟩, hf, e⟩ := Option.map_eq_some_iff.1 h
  obtain ⟨rfl, rfl⟩ := Prod.mk.inj e
  exact ⟨hn i hf, by simp⟩

private theorem length_of_marked {mark : Mark} {prev s o r} (h : marked mark prev s = some (o, r)) :
    r.length < s.length ∧ ∀ m body, o = .marked m body → body.length < s.length := by
  obtain ⟨⟨b, r'⟩, hf, e⟩ := Option.map_eq_some_iff.1 h
  obtain ⟨rfl, rfl⟩ := Prod.mk.inj e
  have := Mark.length_of_body? hf
  refine ⟨by omega, fun m body hb => ?_⟩
  obtain ⟨rfl, rfl⟩ := Opening.marked.inj hb
  omega

private theorem length_of_cut? {sep s a b : List Char} (h : cut? sep s = some (a, b)) :
    b.length ≤ s.length := by
  simp [cut?_eq_some h]
  omega

private theorem length_of_link? {s i r} (h : link? s = some (i, r)) : r.length ≤ s.length := by
  simp only [link?, Option.bind_eq_bind, Option.bind_eq_some_iff] at h
  obtain ⟨⟨a, b⟩, hc, h⟩ := h
  have := length_of_cut? hc
  split at h
  · simp at h
  · obtain ⟨l, _, e⟩ := Option.bind_eq_some_iff.1 h
    simp_all

private theorem length_of_citation? {s i r} (h : citation? s = some (i, r)) :
    r.length ≤ s.length := by
  simp only [citation?, Option.bind_eq_bind, Option.bind_eq_some_iff] at h
  obtain ⟨⟨a, b⟩, hc, l, _, e⟩ := h
  have := length_of_cut? hc
  simp_all

private theorem length_of_code? {s i r} (h : code? s = some (i, r)) : r.length ≤ s.length := by
  simp only [code?, Option.bind_eq_bind, Option.bind_eq_some_iff] at h
  obtain ⟨⟨a, b⟩, hc, h⟩ := h
  have := length_of_cut? hc
  split at h <;> simp_all

private theorem length_of_math? {s i r} (h : math? s = some (i, r)) : r.length ≤ s.length := by
  unfold math? at h
  split at h
  · simp at h
  · obtain ⟨⟨a, b⟩, hb, e⟩ := Option.map_eq_some_iff.1 h
    have := length_of_mathBody? hb
    simp_all
    omega

/-- A span leaves less text than it found, and so does the inside of emphasis. -/
theorem span?_shorter {prev : Option Char} {s : List Char} {o : Opening} {r : List Char}
    (h : span? prev s = some (o, r)) :
    r.length < s.length ∧ ∀ m body, o = .marked m body → body.length < s.length := by
  unfold span? at h
  split at h
  case h_10 => simp at h
  case h_1 => exact length_of_leaf h fun i hi => by have := length_of_link? hi; simp; omega
  case h_2 => exact length_of_leaf h fun i hi => by have := length_of_link? hi; simp; omega
  case h_3 =>
    exact length_of_leaf h fun i hi => by have := length_of_citation? hi; simp at this ⊢; omega
  case h_4 => exact length_of_leaf h fun i hi => by have := length_of_code? hi; simp; omega
  case h_5 => exact length_of_leaf h fun i hi => by have := length_of_math? hi; simp; omega
  all_goals
    obtain ⟨h₁, h₂⟩ := length_of_marked h
    refine ⟨by simp only [List.length_cons]; omega, fun m body hb => ?_⟩
    have := h₂ m body hb
    simp only [List.length_cons]
    omega

/-! ## Texts -/

/-- A piece of a text: a literal character or a span. -/
abbrev Piece := Char ⊕ Inline

/-- A run of literal characters as a span, unless it is empty. -/
def literal (run : List Char) (spans : List Inline) : List Inline :=
  match run with
  | [] => spans
  | c :: cs => .text (String.ofList (c :: cs)) :: spans

/-- The pieces with each maximal run of characters made one text. The first component is the run
at the beginning, which may still grow. -/
def gatherRuns (pieces : List Piece) : List Char × List Inline :=
  pieces.foldr
    (fun
      | .inl c, (run, spans) => (c :: run, spans)
      | .inr i, (run, spans) => ([], i :: literal run spans))
    ([], [])

/-- The spans of a text from its pieces. -/
def gather (pieces : List Piece) : List Inline :=
  let (run, spans) := gatherRuns pieces
  literal run spans

/-- A mark applied to its inside. -/
def Mark.apply (m : Mark) (inner : List Inline) : Inline :=
  if m.double then .strong inner else .emphasis inner

/-- The literal character that a text beginning with `c` stands for, and the text after it: a
backslash gives way to the punctuation character behind it. -/
def unescape (c : Char) (t : List Char) : Char × List Char :=
  match t with
  | d :: u => if c = '\\' ∧ isPunctuation d then (d, u) else (c, d :: u)
  | [] => (c, [])

private theorem length_of_unescape (c : Char) (t : List Char) :
    (unescape c t).2.length ≤ t.length := by
  unfold unescape
  split
  · split <;> simp
  · simp

/-- The pieces of the text `s`, with `prev` the character before it. -/
def pieces (prev : Option Char) (s : List Char) : List Piece :=
  match s with
  | [] => []
  | c :: t =>
    match _h : span? prev (c :: t) with
    | some (.leaf i closer, rest) => .inr i :: pieces (some closer) rest
    | some (.marked m body, rest) =>
      .inr (m.apply (gather (pieces none body))) :: pieces (some m.char) rest
    | none =>
      let next := unescape c t
      .inl next.1 :: pieces (some next.1) next.2
termination_by s.length
decreasing_by
  · exact (span?_shorter _h).1
  · exact (span?_shorter _h).2 m body rfl
  · exact (span?_shorter _h).1
  · have := length_of_unescape c t
    simp only [List.length_cons]
    omega

/-- Reads inline text. -/
def parse (s : String) : List Inline := gather (pieces none s.toList)

end Longform.Inline
