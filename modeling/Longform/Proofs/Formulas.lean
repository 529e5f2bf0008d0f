import Longform.Latex.Render
import Longform.Proofs.InlineText

/-!
# Formulas in running text

A formula is written to LaTeX as it was read, so a dollar sign in it ends math mode
early unless a backslash stands before it. While it looks for the one that closes, the
reader passes over two kinds of dollar signs, those behind a backslash and those
behind a blank, and the latter stay in the formula as well.

* `math?_eq_some_iff` says what is read as a formula (`Enclosed`).
* `exists_mem_parse`: a span at any depth stands in a text that was read on its own.
* `isRead_of_mem_parse`: a span at any depth was read by one of the readers.
* `formulas_of_parse`: the formulas of texts are the enclosed ones, and a rendered
  formula has two bare dollar signs and one more for each behind a blank.
-/

namespace Longform

namespace Inline

open Text

variable {inner s t body rest : List Char} {i j : Inline} {prev : Option Char}

/-! ## Dollar signs -/

/-- How many dollar signs stand behind a character of some kind; `prev` is the character before the
text. -/
def dollars (kind : Option Char → Bool) : (prev : Option Char) → (s : List Char) → Nat
  | _, [] => 0
  | prev, c :: s => (if c = '$' ∧ kind prev = true then 1 else 0) + dollars kind (some c) s

/-- A dollar sign behind the character does not close a formula. -/
def shields (c : Char) : Bool := c == '\\' || isBlank c

/-- Whether a dollar sign behind `prev` closes a formula. -/
def canClose (prev : Option Char) : Bool := !prev.any shields

/-- Whether a dollar sign behind `prev` has no backslash before it. -/
def isBare (prev : Option Char) : Bool := prev != some '\\'

/-- Whether a dollar sign behind `prev` stands behind a blank. -/
def isSpaced (prev : Option Char) : Bool := prev.any isBlank

theorem not_isSpaced_of_canClose (closing : canClose prev = true) : isSpaced prev = false := by
  rcases prev with _ | c
  · rfl
  · simp only [canClose, shields, Option.any_some, Bool.not_eq_true', Bool.or_eq_false_iff]
      at closing
    exact closing.2

/-- A dollar sign without a backslash before it can close a formula unless it stands behind a
blank. -/
theorem isBare_iff : isBare prev = true ↔ canClose prev = true ∨ isSpaced prev = true := by
  rcases prev with _ | c
  · exact iff_of_true rfl (.inl rfl)
  · by_cases backslash : c = '\\'
    · rw [backslash]
      decide
    · cases blank : isBlank c <;> simp [isBare, canClose, isSpaced, shields, backslash, blank]

theorem dollars_isBare (prev : Option Char) (s : List Char) :
    dollars isBare prev s = dollars canClose prev s + dollars isSpaced prev s := by
  induction s generalizing prev with
  | nil => rfl
  | cons c s ih =>
    rw [dollars, dollars, dollars, ih, if_congr (and_congr_right fun _ => isBare_iff) rfl rfl]
    cases closing : canClose prev with
    | true =>
      simp only [not_isSpaced_of_canClose closing, true_or, and_true, Bool.false_eq_true, and_false,
        if_false]
      omega
    | false =>
      simp only [Bool.false_eq_true, false_or, and_false, if_false]
      omega

theorem dollars_append (kind : Option Char → Bool) (prev : Option Char) (s t : List Char) :
    dollars kind prev (s ++ t) = dollars kind prev s + dollars kind (s.getLast?.or prev) t := by
  induction s generalizing prev with
  | nil => simp [dollars]
  | cons c s ih =>
    have last : (c :: s).getLast?.or prev = s.getLast?.or (some c) := by
      rw [List.getLast?_cons]
      cases s.getLast? <;> rfl
    rw [List.cons_append, dollars, dollars, ih, last, Nat.add_assoc]

/-- What stands before a text that does not begin with a dollar sign does not matter. -/
theorem dollars_of_startsIn (kind : Option Char → Bool) (noDollar : startsIn (· == '$') s = false)
    (prev other : Option Char) : dollars kind prev s = dollars kind other s := by
  rcases s with _ | ⟨c, s⟩
  · rfl
  · have ne : c ≠ '$' := ne_of_beq_false noDollar
    rw [dollars, dollars, if_neg fun both => ne both.1, if_neg fun both => ne both.1]

/-! ## What is read as a formula -/

/-- The text stands between two dollar signs, the second of which is the first that can close. -/
structure Enclosed (m : List Char) : Prop where
  nonempty : m ≠ []
  firstSeen : startsIn isBlank m = false
  closes : endsIn shields m = false
  notBefore : dollars canClose none m = 0

theorem canClose_head? (inner : List Char) :
    canClose inner.head? = true ↔
      ¬ startsIn (· == '\\') inner = true ∧ ¬ startsIn isBlank inner = true := by
  cases inner with
  | nil => simp [canClose, startsIn]
  | cons c inner => simp [canClose, startsIn, shields]

theorem mathBody?_cons (inner : List Char) (c : Char) (s : List Char) :
    mathBody? inner (c :: s) =
      if c = '$' ∧ canClose inner.head? = true then some (inner.reverse, s)
      else mathBody? (c :: inner) s := by
  rw [mathBody?, if_congr (and_congr_right fun _ => canClose_head? inner) rfl rfl]

/-- A formula ends at the first dollar sign that can close it. -/
theorem mathBody?_eq_some_iff :
    mathBody? inner s = some (body, rest) ↔
      ∃ passed, s = passed ++ '$' :: rest ∧ body = inner.reverse ++ passed ∧
        dollars canClose inner.head? passed = 0 ∧
        canClose (passed.reverse ++ inner).head? = true := by
  -- Whether a dollar sign closes is told by the character passed last, so `inner` grows with it.
  induction s generalizing inner with
  | nil =>
    refine iff_of_false nofun ?_
    rintro ⟨passed, none, -⟩
    simp at none
  | cons c s ih =>
    rw [mathBody?_cons]
    split
    · next here =>
      constructor
      · intro found
        cases found
        exact ⟨[], by rw [here.1]; rfl, by simp, rfl, here.2⟩
      · rintro ⟨passed, split, rfl, first, -⟩
        rcases passed with _ | ⟨d, passed⟩
        · cases split
          simp
        · cases split
          rw [dollars, if_pos here] at first
          omega
    · next notHere =>
      rw [ih]
      constructor
      · rintro ⟨passed, rfl, rfl, first, closes⟩
        refine ⟨c :: passed, rfl, by simp, ?_, by simpa using closes⟩
        rw [dollars, if_neg notHere, Nat.zero_add]
        exact first
      · rintro ⟨passed, split, rfl, first, closes⟩
        rcases passed with _ | ⟨d, passed⟩
        · cases split
          exact absurd ⟨rfl, closes⟩ notHere
        · cases split
          rw [dollars, if_neg notHere, Nat.zero_add] at first
          exact ⟨passed, rfl, by simp, first, by simpa using closes⟩

theorem canClose_reverse (s : List Char) : canClose s.reverse.head? = !endsIn shields s := by
  rw [canClose, endsIn, List.head?_reverse]

theorem Enclosed.noDollar (enclosed : Enclosed t) : startsIn (· == '$') t = false := by
  rcases t with _ | ⟨c, t⟩
  · rfl
  · refine beq_false_of_ne ?_
    rintro rfl
    have first := enclosed.notBefore
    rw [dollars, if_pos ⟨rfl, rfl⟩] at first
    omega

theorem Enclosed.lastSeen (enclosed : Enclosed t) : endsIn isBlank t = false := by
  have closes := enclosed.closes
  rw [endsIn] at closes ⊢
  cases last : t.getLast? with
  | none => rfl
  | some c =>
    rw [last] at closes
    exact (Bool.or_eq_false_iff.1 closes).2

theorem math?_eq_some_iff :
    math? s = some (i, rest) ↔
      ∃ m, Enclosed m ∧ i = .math (String.ofList m) ∧ s = m ++ '$' :: rest := by
  have opens : (s.isEmpty || startsIn isBlank s || startsIn (· == '$') s) = false ↔
      s ≠ [] ∧ startsIn isBlank s = false ∧ startsIn (· == '$') s = false := by
    simp [and_assoc]
  rw [math?]
  constructor
  · intro found
    split at found
    · cases found
    · next opening =>
      obtain ⟨some, seen, noDollar⟩ := opens.1 (eq_false_of_ne_true opening)
      obtain ⟨⟨body, after⟩, read, same⟩ := Option.map_eq_some_iff.1 found
      cases same
      obtain ⟨passed, split, whole, first, closes⟩ := mathBody?_eq_some_iff.1 read
      rw [List.append_nil, canClose_reverse, Bool.not_eq_true'] at closes
      have nonempty : passed ≠ [] := by
        rintro rfl
        rw [split] at noDollar
        cases noDollar
      rw [split, startsIn_append nonempty] at seen
      exact ⟨passed, ⟨nonempty, seen, closes, first⟩, by rw [whole]; rfl, split⟩
  · rintro ⟨m, enclosed, rfl, rfl⟩
    have first (p : Char → Bool) : startsIn p (m ++ '$' :: rest) = startsIn p m :=
      startsIn_append enclosed.nonempty _
    have opening := opens.2
      ⟨by simp, (first _).trans enclosed.firstSeen, (first _).trans enclosed.noDollar⟩
    have read : mathBody? [] (m ++ '$' :: rest) = some (m, rest) := by
      refine mathBody?_eq_some_iff.2 ⟨m, rfl, rfl, enclosed.notBefore, ?_⟩
      rw [List.append_nil, canClose_reverse, enclosed.closes]
      rfl
    rw [if_neg (by rw [opening]; decide), read]
    rfl

/-! ## Spans at any depth -/

mutual

/-- A span and the spans it holds, in reading order. -/
def allSpansOne : Inline → List Inline
  | .emphasis inner => .emphasis inner :: allSpans inner
  | .strong inner => .strong inner :: allSpans inner
  | i => [i]

/-- The spans of a text at any depth, in reading order. -/
def allSpans : List Inline → List Inline
  | [] => []
  | i :: is => allSpansOne i ++ allSpans is

end

theorem mem_allSpans_iff {is : List Inline} : i ∈ allSpans is ↔ ∃ j ∈ is, i ∈ j.allSpansOne := by
  induction is with
  | nil => simp [allSpans]
  | cons j is ih => rw [allSpans, List.mem_append, ih, List.exists_mem_cons_iff]

theorem allSpansOne_apply (m : Mark) (inner : List Inline) :
    (m.apply inner).allSpansOne = m.apply inner :: allSpans inner := by
  rw [Mark.apply]
  split <;> rfl

theorem mem_literal {run : List Char} {spans : List Inline} (mem : i ∈ literal run spans) :
    (∃ t, i = .text t) ∨ i ∈ spans := by
  rcases run with _ | ⟨c, run⟩
  · exact .inr mem
  · exact (List.mem_cons.1 mem).imp_left fun same => ⟨_, same⟩

theorem mem_gatherRuns {ps : List Piece} (mem : i ∈ (gatherRuns ps).2) :
    (∃ t, i = .text t) ∨ .inr i ∈ ps := by
  induction ps with
  | nil => cases mem
  | cons p ps ih =>
    rcases p with c | j
    · exact (ih mem).imp_right (List.mem_cons_of_mem _)
    · rcases List.mem_cons.1 mem with rfl | mem
      · exact .inr (List.mem_cons_self ..)
      · rcases mem_literal mem with text | mem
        · exact .inl text
        · exact (ih mem).imp_right (List.mem_cons_of_mem _)

/-- What is gathered is literal text and the spans among the pieces. -/
theorem mem_gather {ps : List Piece} (mem : i ∈ gather ps) : (∃ t, i = .text t) ∨ .inr i ∈ ps :=
  (mem_literal mem).elim .inl mem_gatherRuns

/-- The span was read as a whole. -/
inductive ReadWhole (i : Inline) : Prop
  | link {t rest : List Char} (read : link? t = some (i, rest))
  | citation {t rest : List Char} (read : citation? t = some (i, rest))
  | code {t rest : List Char} (read : code? t = some (i, rest))
  | math {t rest : List Char} (read : math? t = some (i, rest))

theorem readWhole_of_span? {closer : Char} (opens : span? prev s = some (.leaf i closer, rest)) :
    ReadWhole i := by
  unfold span? at opens
  split at opens
  case h_10 => cases opens
  all_goals
    obtain ⟨⟨j, after⟩, read, same⟩ := Option.map_eq_some_iff.1 opens
    cases same
  case h_1 | h_2 => exact .link read
  case h_3 => exact .citation read
  case h_4 => exact .code read
  case h_5 => exact .math read

/-- What is read as a link is the text up to the brackets that close it, on one line. -/
theorem of_link? (read : link? t = some (i, rest)) :
    ∃ inner l, '\n' ∉ inner ∧ Link.parse? inner = some l ∧ i = .link l := by
  obtain ⟨⟨inner, after⟩, -, read⟩ := Option.bind_eq_some_iff.1 read
  dsimp only at read
  split at read
  · cases read
  · next oneLine =>
    obtain ⟨l, parsed, same⟩ := Option.bind_eq_some_iff.1 read
    cases same
    exact ⟨inner, l, fun mem => oneLine (List.contains_iff_mem.2 mem), parsed, rfl⟩

/-- What is read as a citation is the text up to the first closing bracket, part by part. -/
theorem of_citation? (read : citation? t = some (i, rest)) :
    ∃ inner keys, ']' ∉ inner ∧ (splitOn ';' inner).mapM citationKey? = some keys ∧
      i = .citation keys := by
  obtain ⟨⟨inner, after⟩, cut, read⟩ := Option.bind_eq_some_iff.1 read
  obtain ⟨keys, parsed, same⟩ := Option.bind_eq_some_iff.1 read
  cases same
  exact ⟨inner, keys, not_mem_of_cut? cut, parsed, rfl⟩

/-- What is read as code is the text up to the next backtick. -/
theorem of_code? (read : code? t = some (i, rest)) :
    ∃ c, c ≠ [] ∧ '`' ∉ c ∧ i = .code (String.ofList c) := by
  obtain ⟨⟨inner, after⟩, cut, read⟩ := Option.bind_eq_some_iff.1 read
  dsimp only at read
  split at read
  · cases read
  · next some =>
    cases read
    exact ⟨inner, fun none => some (List.isEmpty_iff.2 none), not_mem_of_cut? cut, rfl⟩

/-- A span that was read as a whole holds no other. -/
theorem ReadWhole.allSpansOne_eq (whole : ReadWhole i) : i.allSpansOne = [i] := by
  cases whole with
  | link read =>
    obtain ⟨_, l, -, -, rfl⟩ := of_link? read
    rfl
  | citation read =>
    obtain ⟨_, keys, -, -, rfl⟩ := of_citation? read
    rfl
  | code read =>
    obtain ⟨c, -, -, rfl⟩ := of_code? read
    rfl
  | math read =>
    obtain ⟨m, -, rfl, -⟩ := math?_eq_some_iff.1 read
    rfl

theorem ReadWhole.enclosed {m : String} (whole : ReadWhole (.math m)) : Enclosed m.toList := by
  cases whole with
  | link read =>
    obtain ⟨_, l, -, -, same⟩ := of_link? read
    cases same
  | citation read =>
    obtain ⟨_, keys, -, -, same⟩ := of_citation? read
    cases same
  | code read =>
    obtain ⟨c, -, -, same⟩ := of_code? read
    cases same
  | math read =>
    obtain ⟨body, enclosed, same, -⟩ := math?_eq_some_iff.1 read
    cases same
    rwa [String.toList_ofList]

/-- The ways in which a span is read. -/
inductive IsRead (i : Inline) : Prop
  | text {t : String} (same : i = .text t)
  | marked {m : Mark} {inner : List Inline} (same : i = m.apply inner)
  | whole (read : ReadWhole i)

/-- A span among the pieces of a text is one that opens at some place of it. -/
theorem exists_opening_of_mem_pieces (mem : .inr i ∈ pieces prev s) :
    ∃ before u o after, span? before u = some (o, after) ∧ i = o.span := by
  fun_induction pieces prev s with
  | case1 => cases mem
  | case2 prev c t k closer rest opens ih =>
    rcases List.mem_cons.1 mem with same | among
    · exact ⟨_, _, _, _, opens, Sum.inr.inj same⟩
    · exact ih among
  | case3 prev c t m body rest opens _ ih =>
    rcases List.mem_cons.1 mem with same | among
    · exact ⟨_, _, _, _, opens, Sum.inr.inj same⟩
    · exact ih among
  | case4 prev c t literal next ih =>
    rcases List.mem_cons.1 mem with same | among
    · cases same
    · exact ih among

/-- What is read is literal text and spans that open at some place. -/
theorem mem_parse {t : String} (mem : i ∈ parse t) :
    (∃ t, i = .text t) ∨ ∃ before u o after, span? before u = some (o, after) ∧ i = o.span :=
  (mem_gather mem).imp_right exists_opening_of_mem_pieces

theorem exists_mem_parse_of_mem_pieces :
    ∀ j, .inr j ∈ pieces prev s → i ∈ j.allSpansOne → i = j ∨ ∃ t, i ∈ parse t := by
  fun_induction pieces prev s with
  | case1 => nofun
  | case2 prev c t k closer rest opens ih =>
    intro j among inside
    rcases List.mem_cons.1 among with same | among
    · cases same
      rw [(readWhole_of_span? opens).allSpansOne_eq, List.mem_singleton] at inside
      exact .inl inside
    · exact ih j among inside
  | case3 prev c t m body rest opens ihBody ih =>
    intro j among inside
    rcases List.mem_cons.1 among with same | among
    · cases same
      rw [allSpansOne_apply] at inside
      rcases List.mem_cons.1 inside with marked | deeper
      · exact .inl marked
      · -- The inside of emphasis is a text of its own.
        have own : parse (String.ofList body) = gather (pieces none body) := by
          rw [parse, String.toList_ofList]
        obtain ⟨k, among, inside⟩ := mem_allSpans_iff.1 deeper
        rcases mem_gather among with ⟨t, rfl⟩ | piece
        · rw [List.mem_singleton.1 inside]
          exact .inr ⟨_, own ▸ among⟩
        · rcases ihBody k piece inside with rfl | found
          · exact .inr ⟨_, own ▸ among⟩
          · exact .inr found
    · exact ih j among inside
  | case4 prev c t literal next ih =>
    intro j among inside
    rcases List.mem_cons.1 among with same | among
    · cases same
    · exact ih j among inside

/-- A span at any depth stands in a text that was read on its own. -/
theorem exists_mem_parse {t : String} (mem : i ∈ allSpans (parse t)) : ∃ s, i ∈ parse s := by
  obtain ⟨j, among, inside⟩ := mem_allSpans_iff.1 mem
  rcases mem_gather among with ⟨u, rfl⟩ | piece
  · rw [List.mem_singleton.1 inside]
    exact ⟨t, among⟩
  · rcases exists_mem_parse_of_mem_pieces j piece inside with rfl | found
    · exact ⟨t, among⟩
    · exact found

/-- At any depth there are only spans that were read. -/
theorem isRead_of_mem_parse {t : String} (mem : i ∈ allSpans (parse t)) : IsRead i := by
  obtain ⟨s, mem⟩ := exists_mem_parse mem
  rcases mem_parse mem with ⟨u, text⟩ | ⟨_, _, o, _, opens, rfl⟩
  · exact .text text
  · cases o with
    | leaf i closer => exact .whole (readWhole_of_span? opens)
    | marked m body => exact .marked rfl

/-! ## Formulas -/

theorem enclosed_of_mem_parse {m t : String} (mem : .math m ∈ allSpans (parse t)) :
    Enclosed m.toList := by
  cases isRead_of_mem_parse mem with
  | text same => cases same
  | marked same =>
    rw [Mark.apply] at same
    split at same <;> cases same
  | whole read => exact read.enclosed

/-- A formula between its dollar signs is read as itself. -/
theorem Enclosed.parse_eq {m : String} (enclosed : Enclosed m.toList) :
    parse ("$" ++ m ++ "$") = [.math m] := by
  have read : math? (m.toList ++ ['$']) = some (.math m, []) :=
    math?_eq_some_iff.2 ⟨m.toList, enclosed, by rw [String.ofList_toList], rfl⟩
  have opens : span? none ('$' :: (m.toList ++ ['$'])) = some (.leaf (.math m) '$', []) :=
    congrArg (Option.map _) read
  have chars : ("$" ++ m ++ "$").toList = '$' :: (m.toList ++ ['$']) := by simp
  rw [parse, chars, pieces_opening opens, pieces_nil]
  rfl

/-- The dollar signs of a formula that have no backslash before them stand behind blanks. -/
theorem Enclosed.dollars_isBare (enclosed : Enclosed s) (prev : Option Char) :
    dollars isBare prev s = dollars isSpaced none s := by
  rw [dollars_of_startsIn isBare enclosed.noDollar prev none, Inline.dollars_isBare,
    enclosed.notBefore, Nat.zero_add]

theorem Enclosed.dollars_span {m : String} (enclosed : Enclosed m.toList) :
    dollars isBare none (Latex.span (.math m)).toList = 2 + dollars isSpaced none m.toList := by
  have chars : (Latex.span (.math m)).toList = '$' :: (m.toList ++ ['$']) := by simp [Latex.span]
  have closing : isBare (m.toList.getLast?.or (some '$')) = true := by
    have closes := enclosed.closes
    rw [endsIn] at closes
    cases last : m.toList.getLast? with
    | none => rfl
    | some c =>
      rw [last] at closes
      refine bne_iff_ne.2 fun backslash => ?_
      cases backslash
      cases closes
  rw [chars, dollars, if_pos ⟨rfl, rfl⟩, dollars_append, enclosed.dollars_isBare, dollars,
    if_pos ⟨rfl, closing⟩, dollars]
  omega

/-- The formulas of texts are what stands between a dollar sign and the next that can close. The
dollar signs in them that have no backslash before them are those behind blanks, and what is
rendered has each of these besides the two around the formula. -/
theorem formulas_of_parse (m : String) :
    ((∃ t, .math m ∈ allSpans (parse t)) ↔ Enclosed m.toList) ∧
      ∀ t, .math m ∈ allSpans (parse t) →
        dollars isBare none m.toList = dollars isSpaced none m.toList ∧
        dollars isBare none (Latex.span (.math m)).toList = 2 + dollars isSpaced none m.toList := by
  refine ⟨⟨fun ⟨t, mem⟩ => enclosed_of_mem_parse mem, fun enclosed => ?_⟩, fun t mem => ?_⟩
  · refine ⟨"$" ++ m ++ "$", ?_⟩
    rw [enclosed.parse_eq]
    exact List.mem_singleton_self _
  · have enclosed := enclosed_of_mem_parse mem
    exact ⟨enclosed.dollars_isBare none, enclosed.dollars_span⟩

/-- A price with a backslash and one with a blank before its dollar sign. -/
theorem formulas_of_parse_prices :
    .math "5, \\$6, $7" ∈ allSpans (parse "$5, \\$6, $7$") ∧
      dollars isBare none "5, \\$6, $7".toList = 1 ∧
      dollars isBare none (Latex.span (.math "5, \\$6, $7")).toList = 3 := by
  have enclosed : Enclosed "5, \\$6, $7".toList := ⟨by decide, by decide, by decide, by decide⟩
  have read : parse "$5, \\$6, $7$" = [.math "5, \\$6, $7"] := enclosed.parse_eq
  have mem : .math "5, \\$6, $7" ∈ allSpans (parse "$5, \\$6, $7$") := by
    rw [read]
    exact List.mem_singleton_self _
  obtain ⟨_, counts⟩ := formulas_of_parse "5, \\$6, $7"
  exact ⟨mem, counts _ mem⟩

/-- The formula runs over the dollar sign behind the blank, which ends math mode. -/
theorem formula_over_spaced_dollar :
    parse "$5 and $x$" = [.math "5 and $x"] ∧
      Latex.inlines (parse "$5 and $x$") = "$5 and $x$" ∧
      dollars isBare none "5 and $x".toList = 1 ∧
      dollars isBare none "$5 and $x$".toList = 3 := by
  have enclosed : Enclosed "5 and $x".toList := ⟨by decide, by decide, by decide, by decide⟩
  have read : parse "$5 and $x$" = [.math "5 and $x"] := enclosed.parse_eq
  rw [read]
  exact ⟨rfl, by decide, by decide, by decide⟩

end Inline

end Longform
