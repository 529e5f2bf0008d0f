import Mathlib.Data.Bool.AllAny
import Mathlib.Data.List.Chain
import Mathlib.Data.List.TakeWhile
import Longform.Inline.Scan
import Longform.Proofs.Folders
import Longform.Proofs.LinkText

/-!
# Inline text is read as it is written

`Inline.writtenAll` writes spans in the form that they are read in, with a
backslash before each punctuation character of literal text. Spans that hold no
closing mark of their own (`Legible`), set one after another so that none runs
into the next (`mayPrecede`), are got back as they were.

* `pieces_written`: a span is read up to its own end, whatever stands before it
  and after it.
* `gather_flatMap`: the pieces that are read make up the spans again.
-/

namespace Longform.Inline

open Text

/-! ## Writing -/

/-- Literal text with a backslash before its punctuation characters. -/
def escaped (t : List Char) : List Char :=
  t.flatMap fun c => if isPunctuation c then ['\\', c] else [c]

mutual

/-- A span as it is written. -/
def written : Inline → List Char
  | .text t => escaped t.toList
  | .emphasis inner => '*' :: (writtenAll inner ++ ['*'])
  | .strong inner => '*' :: '*' :: (writtenAll inner ++ ['*', '*'])
  | .code c => '`' :: (c.toList ++ ['`'])
  | .math m => '$' :: (m.toList ++ ['$'])
  | .citation keys =>
    '[' :: (List.intercalate [';', ' '] (keys.map fun key => '@' :: key.toList) ++ [']'])
  | .link l => '[' :: '[' :: (l.render.toList ++ [']', ']'])

/-- Inline text as it is written. -/
def writtenAll : List Inline → List Char
  | [] => []
  | i :: is => written i ++ writtenAll is

end

/-! ## Spans that are read whole -/

/-- The text can stand between dollar signs. -/
structure IsFormula (m : String) : Prop where
  nonempty : m ≠ ""
  noDollar : '$' ∉ m.toList
  firstSeen : startsIn isBlank m.toList = false
  lastSeen : endsIn isBlank m.toList = false
  noBackslash : endsIn (· == '\\') m.toList = false

/-- The text can be the key of a citation. -/
structure IsKey (key : String) : Prop where
  nonempty : key ≠ ""
  seen : ∀ c ∈ key.toList, isBlank c = false
  noMark : ∀ c ∈ key.toList, c ≠ ',' ∧ c ≠ ';' ∧ c ≠ ']'

/-- The text can stand between asterisks. A backslash does not keep an asterisk from closing. -/
structure IsStressed (t : String) : Prop where
  nonempty : t ≠ ""
  noStar : '*' ∉ t.toList
  firstSeen : startsIn isBlank t.toList = false
  lastSeen : endsIn isBlank t.toList = false

/-- A span that holds nothing that ends it early. -/
inductive Legible : Inline → Prop
  | text {t : String} (nonempty : t ≠ "") : Legible (.text t)
  | emphasis {t : String} (stressed : IsStressed t) : Legible (.emphasis [.text t])
  | strong {t : String} (stressed : IsStressed t) : Legible (.strong [.text t])
  | code {c : String} (nonempty : c ≠ "") (noTick : '`' ∉ c.toList) : Legible (.code c)
  | math {m : String} (formula : IsFormula m) : Legible (.math m)
  | citation {keys : List String} (nonempty : keys ≠ []) (proper : ∀ key ∈ keys, IsKey key) :
    Legible (.citation keys)
  | link {l : Link} (legible : l.Legible) (noMark : contains [']', ']'] l.render.toList = false)
    (lastOpen : endsIn (· == ']') l.render.toList = false) : Legible (.link l)

/-- Whether a span may stand right before another: two texts would be one, and the asterisk that
closes emphasis is not to be followed by another. -/
def mayPrecede : (first second : Inline) → Bool
  | .text _, .text _ => false
  | .emphasis _, .emphasis _ | .emphasis _, .strong _ => false
  | _, _ => true

variable {c : Char} {s t rest : List Char} {prev : Option Char}

/-! ## Pieces -/

/-- The span that an opening is read as. -/
def Opening.span : Opening → Inline
  | .leaf i _ => i
  | .marked m body => m.apply (gather (pieces none body))

theorem pieces_opening {o : Opening} (opens : span? prev s = some (o, rest)) :
    pieces prev s = .inr o.span :: pieces (some o.closer) rest := by
  cases s with
  | nil => cases opens
  | cons c t =>
    rw [pieces]
    split
    · next found =>
      cases opens.symm.trans found
      rfl
    · next found =>
      cases opens.symm.trans found
      rfl
    · next found => cases opens.symm.trans found

theorem pieces_literal (opens : span? prev (c :: t) = none) :
    pieces prev (c :: t) =
      .inl (unescape c t).1 :: pieces (some (unescape c t).1) (unescape c t).2 := by
  rw [pieces]
  split
  · next found => cases opens.symm.trans found
  · next found => cases opens.symm.trans found
  · rfl

/-! ## Literal text -/

theorem span?_of_notMem (literal : c ∉ ['!', '[', '`', '$', '*', '_']) :
    span? prev (c :: t) = none := by
  unfold span?
  split <;> simp_all

theorem isPunctuation_of_mem (opener : c ∈ ['!', '[', '`', '$', '*', '_']) :
    isPunctuation c = true :=
  have all : ['!', '[', '`', '$', '*', '_'].all isPunctuation = true := by decide
  List.all_eq_true.1 all c opener

theorem pieces_escaped_cons (prev : Option Char) (c : Char) (s : List Char) :
    pieces prev ((if isPunctuation c then ['\\', c] else [c]) ++ s) =
      .inl c :: pieces (some c) s := by
  by_cases punctuation : isPunctuation c = true
  · have backslash : span? prev ('\\' :: c :: s) = none := span?_of_notMem (by decide)
    have literal : unescape '\\' (c :: s) = (c, s) := if_pos ⟨rfl, punctuation⟩
    rw [if_pos punctuation]
    exact (pieces_literal backslash).trans (by rw [literal])
  · have nothing : span? prev (c :: s) = none :=
      span?_of_notMem fun opener => punctuation (isPunctuation_of_mem opener)
    have noBackslash : c ≠ '\\' := by
      rintro rfl
      exact punctuation (by decide)
    have literal : unescape c s = (c, s) := by
      cases s with
      | nil => rfl
      | cons d s => exact if_neg fun escape => noBackslash escape.1
    rw [if_neg punctuation]
    exact (pieces_literal nothing).trans (by rw [literal])

/-- Literal text is read character by character. -/
theorem pieces_escaped (prev : Option Char) (t rest : List Char) :
    ∃ last, pieces prev (escaped t ++ rest) = t.map .inl ++ pieces last rest := by
  induction t generalizing prev with
  | nil => exact ⟨prev, rfl⟩
  | cons c t ih =>
    obtain ⟨last, same⟩ := ih (some c)
    refine ⟨last, ?_⟩
    rw [escaped, List.flatMap_cons, List.append_assoc, pieces_escaped_cons, ← escaped, same]
    rfl

theorem pieces_nil (prev : Option Char) : pieces prev [] = [] := by
  rw [pieces]

theorem gatherRuns_append (t : List Char) (ps : List Piece) :
    gatherRuns (t.map .inl ++ ps) = (t ++ (gatherRuns ps).1, (gatherRuns ps).2) := by
  induction t with
  | nil => rfl
  | cons c t ih =>
    rw [gatherRuns] at ih ⊢
    rw [List.map_cons, List.cons_append, List.foldr_cons, ih]
    rfl

theorem literal_toList {t : String} (nonempty : t ≠ "") (spans : List Inline) :
    literal t.toList spans = .text t :: spans := by
  unfold literal
  split
  · next none => exact absurd none (toList_ne_nil nonempty)
  · next same => rw [← same, String.ofList_toList]

/-- Written text is read as one text. -/
theorem gather_escaped {t : String} (nonempty : t ≠ "") :
    gather (pieces none (escaped t.toList)) = [.text t] := by
  obtain ⟨last, same⟩ := pieces_escaped none t.toList []
  rw [List.append_nil, pieces_nil] at same
  rw [same, gather, gatherRuns_append]
  change literal (t.toList ++ []) [] = _
  rw [List.append_nil, literal_toList nonempty]

/-! ## Spans without inline text inside -/

theorem code?_eq {c : String} (nonempty : c ≠ "") (noTick : '`' ∉ c.toList) (rest : List Char) :
    code? (c.toList ++ '`' :: rest) = some (.code c, rest) := by
  have some : c.toList.isEmpty ≠ true := fun none =>
    toList_ne_nil nonempty (List.isEmpty_iff.1 none)
  rw [code?, cut?_append noTick]
  refine (if_neg some).trans ?_
  rw [String.ofList_toList]

theorem mathBody?_append (noDollar : '$' ∉ s) (inner rest : List Char) :
    mathBody? inner (s ++ '$' :: rest) = mathBody? (s.reverse ++ inner) ('$' :: rest) := by
  induction s generalizing inner with
  | nil => rfl
  | cons c s ih =>
    rw [List.mem_cons, not_or] at noDollar
    rw [List.cons_append, mathBody?, if_neg fun closes => noDollar.1 closes.1.symm, ih noDollar.2,
      List.reverse_cons, List.append_assoc]
    rfl

theorem IsFormula.math?_eq {m : String} (formula : IsFormula m) (rest : List Char) :
    math? (m.toList ++ '$' :: rest) = some (.math m, rest) := by
  have chars := toList_ne_nil formula.nonempty
  have opens : ((m.toList ++ '$' :: rest).isEmpty || startsIn isBlank (m.toList ++ '$' :: rest)
      || startsIn (· == '$') (m.toList ++ '$' :: rest)) = false := by
    rw [startsIn_append chars, startsIn_append chars, formula.firstSeen,
      startsIn_of_notMem formula.noDollar]
    simp
  -- What has been passed stands in reverse, so the end of the formula is where it begins.
  have closes : mathBody? m.toList.reverse ('$' :: rest) = some (m.toList, rest) := by
    rw [mathBody?, startsIn_reverse, startsIn_reverse, formula.lastSeen, formula.noBackslash]
    simp
  rw [math?, if_neg (by rw [opens]; decide), mathBody?_append formula.noDollar, List.append_nil,
    closes]
  exact congrArg (fun body => some (Inline.math body, rest)) String.ofList_toList

theorem link?_eq {l : Link} (legible : l.Legible)
    (noMark : contains [']', ']'] l.render.toList = false)
    (lastOpen : endsIn (· == ']') l.render.toList = false) (rest : List Char) :
    link? (l.render.toList ++ ']' :: ']' :: rest) = some (.link l, rest) := by
  have oneLine : l.render.toList.contains '\n' ≠ true := fun mem =>
    legible.lineEnd_not_mem (List.contains_iff_mem.1 mem)
  rw [link?, cut?_brackets noMark lastOpen]
  refine (if_neg oneLine).trans ?_
  rw [legible.separable.parse?_render]
  rfl

/-! ## Citations -/

theorem IsKey.citationKey?_eq {key : String} (isKey : IsKey key) (lead : List Char)
    (blank : ∀ c ∈ lead, isBlank c = true) :
    citationKey? (lead ++ '@' :: key.toList) = some key := by
  have lastSeen : endsIn isBlank ('@' :: key.toList) = false := by
    refine endsIn_of_forall fun c mem => ?_
    rcases List.mem_cons.1 mem with rfl | inKey
    · rfl
    · exact isKey.seen c inKey
  have trimmed : trim (lead ++ '@' :: key.toList) = '@' :: key.toList := by
    rw [trim, trimStart, List.dropWhile_append_of_pos blank]
    exact trimEnd_of_endsIn lastSeen
  have whole : (key.toList.takeWhile fun c => !isBlank c && c ≠ ',') = key.toList := by
    rw [List.takeWhile_eq_self_iff]
    intro c mem
    simp [isKey.seen c mem, (isKey.noMark c mem).1]
  have opened : after? ['@'] ('@' :: key.toList) = some key.toList := after?_append ['@'] _
  rw [citationKey?, trimmed, opened]
  dsimp only
  rw [whole]
  split
  · next none => exact absurd none (toList_ne_nil isKey.nonempty)
  · next same => rw [← same, String.ofList_toList]

theorem mapM_citationKey? {keys : List String} (proper : ∀ key ∈ keys, IsKey key)
    (lead : List Char) (blank : ∀ c ∈ lead, isBlank c = true) :
    (keys.map fun key => lead ++ '@' :: key.toList).mapM citationKey? = some keys := by
  induction keys with
  | nil => rfl
  | cons key keys ih =>
    rw [List.forall_mem_cons] at proper
    rw [List.map_cons, List.mapM_cons, proper.1.citationKey?_eq lead blank, ih proper.2]
    rfl

theorem intercalate_cons (sep p : List Char) (c : Char) (ps : List (List Char)) :
    List.intercalate sep ((c :: p) :: ps) = c :: List.intercalate sep (p :: ps) := by
  cases ps with
  | nil => rw [List.intercalate_singleton, List.intercalate_singleton]
  | cons q ps => rw [List.intercalate_cons_cons, List.intercalate_cons_cons]; rfl

/-- The blank behind a semicolon belongs to what follows. -/
theorem intercalate_spaced (p : List Char) (ps : List (List Char)) :
    List.intercalate [';', ' '] (p :: ps) = List.intercalate [';'] (p :: ps.map (' ' :: ·)) := by
  induction ps generalizing p with
  | nil => rfl
  | cons q ps ih =>
    rw [List.map_cons, List.intercalate_cons_cons, List.intercalate_cons_cons, ih, intercalate_cons,
      List.append_assoc, List.append_assoc]
    rfl

theorem IsKey.notMem_part {key : String} (isKey : IsKey key) {mark : Char}
    (isMark : mark = ';' ∨ mark = ']') {lead : List Char} (absent : mark ∉ lead) :
    mark ∉ lead ++ '@' :: key.toList := by
  intro mem
  rcases List.mem_append.1 mem with inLead | inRest
  · exact absent inLead
  · rcases List.mem_cons.1 inRest with rfl | inKey
    · rcases isMark with eq | eq <;> cases eq
    · obtain ⟨_, noSemicolon, noBracket⟩ := isKey.noMark mark inKey
      rcases isMark with eq | eq
      · exact noSemicolon eq
      · exact noBracket eq

theorem citation?_eq {keys : List String} (nonempty : keys ≠ [])
    (proper : ∀ key ∈ keys, IsKey key) (rest : List Char) :
    citation? (List.intercalate [';', ' '] (keys.map fun key => '@' :: key.toList) ++ ']' :: rest) =
      some (.citation keys, rest) := by
  obtain ⟨first, others, rfl⟩ := List.exists_cons_of_ne_nil nonempty
  let parts := ('@' :: first.toList) :: others.map fun key => ' ' :: '@' :: key.toList
  have spaced : List.intercalate [';', ' ']
      ((first :: others).map fun key => '@' :: key.toList) = List.intercalate [';'] parts := by
    rw [List.map_cons, intercalate_spaced, List.map_map]
    rfl
  rw [List.forall_mem_cons] at proper
  have absent (mark : Char) (isMark : mark = ';' ∨ mark = ']') : ∀ part ∈ parts, mark ∉ part := by
    intro part among
    rcases List.mem_cons.1 among with rfl | among
    · exact proper.1.notMem_part isMark List.not_mem_nil
    · obtain ⟨key, inOthers, rfl⟩ := List.mem_map.1 among
      have apart : mark ∉ [' '] := by
        rcases isMark with rfl | rfl <;> decide
      exact (proper.2 key inOthers).notMem_part isMark apart
  -- Only the first key has no blank before it.
  have keys : parts.mapM citationKey? = some (first :: others) := by
    have firstRead := proper.1.citationKey?_eq [] (List.forall_mem_nil _)
    have othersRead := mapM_citationKey? proper.2 [' '] (List.forall_mem_singleton.2 rfl)
    rw [List.nil_append] at firstRead
    rw [List.mapM_cons, firstRead]
    exact congrArg (Option.bind · fun keys => some (first :: keys)) othersRead
  have split : splitOn ';' (List.intercalate [';'] parts) = parts :=
    splitOn_intercalate (List.cons_ne_nil _ _) (absent ';' (.inl rfl))
  rw [spaced, citation?, cut?_append (notMem_intercalate (by decide) (absent ']' (.inr rfl)))]
  change ((splitOn ';' (List.intercalate [';'] parts)).mapM citationKey?).bind _ = _
  rw [split, keys]
  rfl

/-! ## Emphasis -/

theorem findClose_append {m : Mark} (absent : m.char ∉ s) (inner rest : List Char) :
    m.findClose inner (s ++ rest) = m.findClose (s.reverse ++ inner) rest := by
  induction s generalizing inner with
  | nil => rfl
  | cons c s ih =>
    rw [List.mem_cons, not_or] at absent
    have passed : after? m.written (c :: (s ++ rest)) = none := if_neg absent.1
    rw [List.cons_append, Mark.findClose]
    split
    · next found => cases passed.symm.trans found
    · rw [ih absent.2, List.reverse_cons, List.append_assoc]
      rfl

/-- Where a mark stands it closes, or it is passed over whole. -/
theorem findClose_mark (m : Mark) (inner rest : List Char) :
    m.findClose inner (m.written ++ rest) =
      if m.closes inner rest then some (inner.reverse, rest)
      else m.findClose (m.written.reverse ++ inner) rest := by
  have here : after? m.written (m.char :: (m.tail ++ rest)) = some rest :=
    after?_append m.written rest
  rw [Mark.written, List.cons_append, Mark.findClose]
  split
  · next found =>
    cases here.symm.trans found
    rfl
  · next found => cases here.symm.trans found

theorem findClose_written {m : Mark} {inner : List Char} (closes : m.closes inner rest = true) :
    m.findClose inner (m.written ++ rest) = some (inner.reverse, rest) := by
  rw [findClose_mark, if_pos closes]

theorem escaped_cons (c : Char) (t : List Char) :
    escaped (c :: t) = (if isPunctuation c then ['\\', c] else [c]) ++ escaped t :=
  List.flatMap_cons

theorem escaped_ne_nil (nonempty : t ≠ []) : escaped t ≠ [] := by
  cases t with
  | nil => exact absurd rfl nonempty
  | cons c t =>
    rw [escaped_cons]
    split <;> exact fun none => by cases none

/-- Written text begins with a backslash, or with a character of its own that is no punctuation. -/
theorem startsIn_escaped {p : Char → Bool} (backslash : p '\\' = false)
    (first : ∀ c ∈ t.head?, isPunctuation c = false → p c = false) :
    startsIn p (escaped t) = false := by
  cases t with
  | nil => rfl
  | cons c t =>
    rw [escaped_cons]
    split
    · exact backslash
    · next literal => exact first c rfl (eq_false_of_ne_true literal)

theorem endsIn_escaped (p : Char → Bool) (t : List Char) : endsIn p (escaped t) = endsIn p t := by
  rcases List.eq_nil_or_concat t with rfl | ⟨t, c, rfl⟩
  · rfl
  · rw [escaped, List.concat_eq_append, List.flatMap_append, List.flatMap_singleton]
    split <;> simp [endsIn]

theorem mem_escaped (mem : c ∈ escaped t) : c = '\\' ∨ c ∈ t := by
  obtain ⟨d, inText, among⟩ := List.mem_flatMap.1 mem
  split at among
  · rcases List.mem_cons.1 among with rfl | same
    · exact .inl rfl
    · exact .inr (List.mem_singleton.1 same ▸ inText)
  · exact .inr (List.mem_singleton.1 among ▸ inText)

theorem IsStressed.body?_eq {t : String} (stressed : IsStressed t) (double : Bool)
    (apart : double = false → startsIn (· == '*') rest = false) (prev : Option Char) :
    Mark.body? ⟨'*', double⟩ prev (escaped t.toList ++ (Mark.written ⟨'*', double⟩ ++ rest)) =
      some (escaped t.toList, rest) := by
  have noStar : '*' ∉ escaped t.toList := by
    intro mem
    rcases mem_escaped mem with eq | inText
    · cases eq
    · exact stressed.noStar inText
  have some := escaped_ne_nil (toList_ne_nil stressed.nonempty)
  have opens :
      startsIn isBlank (escaped t.toList ++ (Mark.written ⟨'*', double⟩ ++ rest)) = false := by
    rw [startsIn_append some]
    refine startsIn_escaped rfl fun c first _ => ?_
    have seen := stressed.firstSeen
    rwa [startsIn, Option.mem_def.1 first] at seen
  have closes : Mark.closes ⟨'*', double⟩ (escaped t.toList).reverse rest = true := by
    rw [Mark.closes, startsIn_reverse, endsIn_escaped, stressed.lastSeen]
    cases double with
    | false => simp [apart rfl, some]
    | true => simp [some]
  rw [Mark.body?, opens, if_neg (by simp), findClose_append noStar, List.append_nil,
    findClose_written closes, List.reverse_reverse]

/-! ## Reading -/

/-- What a span is read as. -/
def piecesOf : Inline → List Piece
  | .text t => t.toList.map .inl
  | i => [.inr i]

theorem span?_single (first : startsIn (· == '*') s = false) (prev : Option Char) :
    span? prev ('*' :: s) = (Mark.body? ⟨'*', false⟩ prev s).map fun (body, rest) =>
      (.marked ⟨'*', false⟩ body, rest) := by
  rw [span?]
  · rfl
  · rintro t rfl
    cases first

theorem startsIn_star_escaped (t : List Char) : startsIn (· == '*') (escaped t) = false := by
  refine startsIn_escaped rfl fun c _ literal => beq_false_of_ne ?_
  rintro rfl
  cases literal

/-- A span that is no text opens at its first character and ends with its last. -/
theorem Legible.span?_written {i : Inline} (legible : Legible i) (noText : ∀ t, i ≠ .text t)
    (apart : ∀ inner, i = .emphasis inner → startsIn (· == '*') rest = false)
    (prev : Option Char) :
    ∃ o : Opening, span? prev (written i ++ rest) = some (o, rest) ∧ o.span = i := by
  cases legible with
  | text nonempty => exact absurd rfl (noText _)
  | @emphasis t stressed =>
    -- A second asterisk would make it a double mark.
    have first : startsIn (· == '*') (escaped t.toList ++ '*' :: rest) = false := by
      rw [startsIn_append (escaped_ne_nil (toList_ne_nil stressed.nonempty))]
      exact startsIn_star_escaped t.toList
    refine ⟨.marked ⟨'*', false⟩ (escaped t.toList), ?_, ?_⟩
    · simp only [written, writtenAll, List.append_nil, List.cons_append, List.append_assoc]
      rw [List.nil_append, span?_single first]
      exact congrArg (Option.map _) (stressed.body?_eq false (fun _ => apart _ rfl) prev)
    · rw [Opening.span, gather_escaped stressed.nonempty]
      rfl
  | @strong t stressed =>
    refine ⟨.marked ⟨'*', true⟩ (escaped t.toList), ?_, ?_⟩
    · simp only [written, writtenAll, List.append_nil, List.cons_append, List.append_assoc]
      exact congrArg (Option.map _) (stressed.body?_eq true nofun prev)
    · rw [Opening.span, gather_escaped stressed.nonempty]
      rfl
  | @code c nonempty noTick =>
    refine ⟨.leaf (.code c) '`', ?_, rfl⟩
    rw [written, List.cons_append, List.append_assoc]
    exact congrArg (Option.map _) (code?_eq nonempty noTick rest)
  | @math m formula =>
    refine ⟨.leaf (.math m) '$', ?_, rfl⟩
    rw [written, List.cons_append, List.append_assoc]
    exact congrArg (Option.map _) (formula.math?_eq rest)
  | @citation keys nonempty proper =>
    have read := citation?_eq nonempty proper rest
    obtain ⟨first, others, rfl⟩ := List.exists_cons_of_ne_nil nonempty
    rw [List.map_cons, intercalate_cons] at read
    refine ⟨.leaf (.citation (first :: others)) ']', ?_, rfl⟩
    rw [written, List.map_cons, intercalate_cons, List.cons_append, List.append_assoc]
    exact congrArg (Option.map _) read
  | @link l legible noMark lastOpen =>
    refine ⟨.leaf (.link l) ']', ?_, rfl⟩
    rw [written, List.cons_append, List.cons_append, List.append_assoc]
    exact congrArg (Option.map _) (link?_eq legible noMark lastOpen rest)

/-- A span is read up to its own end, whatever stands before it and after it. -/
theorem Legible.pieces_written {i : Inline} (legible : Legible i)
    (apart : ∀ inner, i = .emphasis inner → startsIn (· == '*') rest = false)
    (prev : Option Char) :
    ∃ last, pieces prev (written i ++ rest) = piecesOf i ++ pieces last rest := by
  cases i with
  | text t => exact pieces_escaped prev t.toList rest
  | _ =>
    obtain ⟨o, opens, read⟩ := legible.span?_written nofun apart prev
    refine ⟨some o.closer, ?_⟩
    rw [pieces_opening opens, read]
    rfl

/-- What may stand after emphasis does not begin with an asterisk. -/
theorem startsIn_star_written {inner : List Inline} {j : Inline} (legible : Legible j)
    (apart : mayPrecede (.emphasis inner) j = true) (rest : List Char) :
    startsIn (· == '*') (written j ++ rest) = false := by
  cases legible with
  | @text t nonempty =>
    rw [written, startsIn_append (escaped_ne_nil (toList_ne_nil nonempty))]
    exact startsIn_star_escaped t.toList
  | emphasis _ => cases apart
  | strong _ => cases apart
  | code _ _ => rfl
  | math _ => rfl
  | citation _ _ => rfl
  | link _ _ _ => rfl

theorem pieces_writtenAll {spans : List Inline} (legible : ∀ i ∈ spans, Legible i)
    (apart : spans.IsChain fun i j => mayPrecede i j = true) (prev : Option Char) :
    pieces prev (writtenAll spans) = spans.flatMap piecesOf := by
  induction spans generalizing prev with
  | nil => exact pieces_nil prev
  | cons i is ih =>
    rw [List.forall_mem_cons] at legible
    have follows : ∀ inner, i = .emphasis inner → startsIn (· == '*') (writtenAll is) = false := by
      rintro inner rfl
      cases is with
      | nil => rfl
      | cons j js =>
        have next := (List.isChain_cons_cons.1 apart).1
        exact startsIn_star_written (legible.2 j (List.mem_cons_self ..)) next _
    obtain ⟨last, read⟩ := legible.1.pieces_written follows prev
    rw [writtenAll, read, ih legible.2 apart.tail, List.flatMap_cons]

/-! ## Putting spans together -/

/-- A text is gathered from its characters when no character follows them. -/
theorem gather_text {t : String} (nonempty : t ≠ "") {ps : List Piece}
    (ends : (gatherRuns ps).1 = []) : gather (t.toList.map .inl ++ ps) = .text t :: gather ps := by
  rw [gather, gather, gatherRuns_append]
  dsimp only
  rw [ends, List.append_nil, literal_toList nonempty]
  rfl

theorem gatherRuns_of_text {t : String} {spans : List Inline}
    (apart : (.text t :: spans).IsChain fun i j => mayPrecede i j = true) :
    (gatherRuns (spans.flatMap piecesOf)).1 = [] := by
  cases spans with
  | nil => rfl
  | cons j spans =>
    have next := (List.isChain_cons_cons.1 apart).1
    cases j with
    | text _ => cases next
    | _ => rfl

/-- Spans are gathered from the pieces they are read as. -/
theorem gather_flatMap {spans : List Inline} (legible : ∀ i ∈ spans, Legible i)
    (apart : spans.IsChain fun i j => mayPrecede i j = true) :
    gather (spans.flatMap piecesOf) = spans := by
  induction spans with
  | nil => rfl
  | cons i is ih =>
    rw [List.forall_mem_cons] at legible
    have rest := ih legible.2 apart.tail
    rw [List.flatMap_cons]
    cases i with
    | text t =>
      obtain ⟨nonempty⟩ := legible.1
      exact (gather_text nonempty (gatherRuns_of_text apart)).trans (congrArg _ rest)
    | _ => exact congrArg (_ :: ·) rest

/-- Spans that hold nothing that ends them early, written one after another, are read as they
were. -/
theorem parse_written (spans : List Inline) (legible : ∀ i ∈ spans, Legible i)
    (apart : spans.IsChain fun i j => mayPrecede i j = true) :
    parse (String.ofList (writtenAll spans)) = spans := by
  rw [parse, String.toList_ofList, pieces_writtenAll legible apart, gather_flatMap legible apart]

/-- Spans of every kind without a blank between them. -/
def crowded : List Inline :=
  [.text "1*2\\", .emphasis [.text "a_b"], .code "*x*", .math "y_1", .citation ["k", "l"],
    .link ⟨"Note", some "Head#2", some "a|b"⟩, .strong [.text "$"], .emphasis [.text "c"],
    .text "*!"]

theorem parse_written_crowded :
    (∀ i ∈ crowded, Legible i) ∧ (crowded.IsChain fun i j => mayPrecede i j = true) ∧
      String.ofList (writtenAll crowded) =
        "1\\*2\\\\*a\\_b*`*x*`$y_1$[@k; @l][[Note#Head#2|a|b]]**\\$***c*\\*\\!" ∧
      parse (String.ofList (writtenAll crowded)) = crowded := by
  have link : Link.Legible ⟨"Note", some "Head#2", some "a|b"⟩ := by
    refine ⟨⟨by decide, by decide, by decide⟩, List.all_iff_forall_prop.1 (by decide), ?_, ?_⟩
    · intro _ heading
      cases heading
      exact ⟨⟨by decide, by decide, by decide⟩, List.all_iff_forall_prop.1 (by decide)⟩
    · intro _ label
      cases label
      exact ⟨by decide, by decide, by decide⟩
  have keys : ∀ key ∈ ["k", "l"], IsKey key := by
    rw [List.forall_mem_cons, List.forall_mem_singleton]
    constructor
    · exact ⟨by decide, List.all_iff_forall_prop.1 (by decide),
        List.all_iff_forall_prop.1 (by decide)⟩
    · exact ⟨by decide, List.all_iff_forall_prop.1 (by decide),
        List.all_iff_forall_prop.1 (by decide)⟩
  have legible : ∀ i ∈ crowded, Legible i := by
    simp only [crowded, List.forall_mem_cons]
    exact ⟨.text (by decide), .emphasis ⟨by decide, by decide, by decide, by decide⟩,
      .code (by decide) (by decide), .math ⟨by decide, by decide, by decide, by decide, by decide⟩,
      .citation (by decide) keys, .link link (by decide) (by decide),
      .strong ⟨by decide, by decide, by decide, by decide⟩,
      .emphasis ⟨by decide, by decide, by decide, by decide⟩, .text (by decide), nofun⟩
  have apart : crowded.IsChain fun i j => mayPrecede i j = true := by
    simp [crowded, mayPrecede]
  exact ⟨legible, apart, by decide, parse_written crowded legible apart⟩

end Longform.Inline
