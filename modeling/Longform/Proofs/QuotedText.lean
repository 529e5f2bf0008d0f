import Mathlib.Data.List.Infix
import Mathlib.Data.List.SplitBy
import Longform.Toml.Quoted

/-!
# Strings that are read back

A string that ends its line is read back whole, whatever characters it has and in
whichever of the four styles it is written (`decode_encode`).

* `escapeChar_cases`: a character is written as itself, or as an escape that stands
  for it (`StandsFor`).
* `le_longestRun`: a row of quotes is not longer than the longest run, so that no three
  of them end a long string too early.
* `basic?_escape`, `literal?_append`, `longBasic?_escape` and `longLiteral?_append`:
  one lemma for each style.
-/

namespace Longform.Toml.Quoted

open Text

variable {q c : Char} {s t rest code : List Char} {n run : Nat}

/-! ## Runs -/

/-- A row of equal characters does not go over from one run to the next one. -/
theorem exists_run_of_infix_flatten {runs : List (List Char)} (positive : n ≠ 0)
    (apart : runs.IsChain fun a b =>
      ∃ (ha : a ≠ []) (hb : b ≠ []), (a.getLast ha == b.head hb) = false)
    (inside : List.replicate n q <:+: runs.flatten) :
    ∃ run ∈ runs, List.replicate n q <:+: run := by
  induction runs with
  | nil =>
    exact absurd ((List.replicate_eq_nil_iff q).1 (List.infix_nil.1 inside)) positive
  | cons a runs ih =>
    rw [List.flatten_cons, List.infix_append_iff_ne_nil] at inside
    rcases inside with inFirst | later | ⟨x, y, x_ne, y_ne, row, last, first⟩
    · exact ⟨a, List.mem_cons_self .., inFirst⟩
    · obtain ⟨run, mem, inRun⟩ := ih apart.tail later
      exact ⟨run, List.mem_cons_of_mem _ mem, inRun⟩
    · -- The next run would begin with the character that this one ends in.
      exfalso
      have allEqual : ∀ c ∈ x ++ y, c = q := fun c mem => List.eq_of_mem_replicate (row ▸ mem)
      cases runs with
      | nil => exact y_ne (List.prefix_nil.1 first)
      | cons b runs =>
        obtain ⟨a_ne, b_ne, ne⟩ := (List.isChain_cons_cons.1 apart).1
        have ends : a.getLast a_ne = q := by
          rw [← last.getLast x_ne]
          exact allEqual _ (List.mem_append_left _ (List.getLast_mem x_ne))
        have begins : b.head b_ne = q := by
          rw [List.flatten_cons] at first
          have same := first.head y_ne
          rw [List.head_append_of_ne_nil b_ne] at same
          rw [← same]
          exact allEqual _ (List.mem_append_right _ (List.head_mem y_ne))
        rw [ends, begins, beq_self_eq_true] at ne
        cases ne

theorem length_le_foldl_max {runs : List (List Char)} {a : List Char} (k : Nat) (mem : a ∈ runs) :
    a.length ≤ runs.foldl (fun n run => max n run.length) k := by
  have start_le : ∀ (runs : List (List Char)) k,
      k ≤ runs.foldl (fun n run => max n run.length) k := by
    intro runs
    induction runs with
    | nil => exact fun k => Nat.le_refl k
    | cons b runs ih => exact fun k => (Nat.le_max_left ..).trans (ih _)
  induction mem generalizing k with
  | head runs => exact (Nat.le_max_right ..).trans (start_le runs _)
  | tail b _ ih => exact ih _

/-- A row of equal characters is not longer than the longest run of them. -/
theorem le_longestRun (inside : List.replicate n q <:+: s) : n ≤ longestRun q s := by
  by_cases none : n = 0
  · exact none ▸ Nat.zero_le _
  rw [← List.flatten_splitBy (· == ·) s] at inside
  obtain ⟨run, mem, inRun⟩ :=
    exists_run_of_infix_flatten none (List.isChain_getLast_head_splitBy ..) inside
  have has : run.contains q = true :=
    List.contains_iff_mem.2 (inRun.subset (List.mem_replicate.2 ⟨none, rfl⟩))
  calc n = (List.replicate n q).length := List.length_replicate.symm
    _ ≤ run.length := inRun.length_le
    _ ≤ longestRun q s := length_le_foldl_max 0 (List.mem_filter.2 ⟨mem, has⟩)

theorem notMem_of_longestRun (none : longestRun q s = 0) : q ∉ s := by
  intro mem
  have one : List.replicate 1 q <:+: s := (List.singleton_infix_iff ..).2 mem
  exact absurd (le_longestRun one) (by omega)

/-! ## Escapes -/

/-- After a backslash, some characters stand for another one, whatever follows them. -/
def StandsFor (code : List Char) (c : Char) : Prop :=
  ∀ rest, escapeSequence? (code ++ rest) = some (c, code.length) ∧
    restOfLineBlank (code ++ rest) = false

theorem standsFor_letter (named : escapedChar? q = some c) : StandsFor [q] c := by
  intro rest
  have cases : q = 'b' ∨ q = 't' ∨ q = 'n' ∨ q = 'f' ∨ q = 'r' ∨ q = '"' ∨ q = '\\' := by
    unfold escapedChar? at named
    split at named <;> simp at named ⊢
  rcases cases with rfl | rfl | rfl | rfl | rfl | rfl | rfl <;>
    exact ⟨congrArg (Option.map (·, 1)) named, rfl⟩

/-- The digits that are written for a number are read as this number. -/
theorem digits?_hexDigits {width : Nat} (positive : width ≠ 0) (small : n < Nat.pow 16 width) :
    digits? 16 (hexDigits width n) = some n := by
  have nonempty : (hexDigits width n).isEmpty = false := by
    rw [List.isEmpty_eq_false_iff, ← List.length_pos_iff, length_hexDigits]
    exact Nat.pos_of_ne_zero positive
  rw [digits?, if_neg (Bool.not_eq_true _ ▸ nonempty)]
  clear nonempty positive
  induction width generalizing n with
  | zero =>
    obtain rfl : n = 0 := Nat.lt_one_iff.1 small
    rfl
  | succ width ih =>
    have digit : n % 16 < 16 := Nat.mod_lt _ (by decide)
    have before : n / 16 < Nat.pow 16 width :=
      Nat.div_lt_of_lt_mul (by rwa [Nat.mul_comm])
    rw [hexDigits, List.foldl_append, ih before, List.foldl_cons, List.foldl_nil,
      hexDigit?_hexDigit _ digit]
    simp [digit, Nat.div_add_mod]

theorem standsFor_hexDigits (valid : n.isValidChar) (small : n < Nat.pow 16 4) :
    StandsFor ('u' :: hexDigits 4 n) (Char.ofNat n) := by
  intro rest
  have taken : (hexDigits 4 n ++ rest).take 4 = hexDigits 4 n := by
    rw [List.take_append_of_le_length (length_hexDigits 4 n).ge,
      List.take_of_length_le (length_hexDigits 4 n).le]
  refine ⟨?_, rfl⟩
  simp [escapeSequence?, taken, length_hexDigits, digits?_hexDigits, small, charOf?, valid]

theorem toNat_lt_of_isControl (control : isControl c = true) : c.toNat < 128 := by
  rw [isControl, Bool.or_eq_true, Bool.and_eq_true, Bool.and_eq_true] at control
  rcases control with ⟨⟨low, -⟩, -⟩ | delete
  · exact (of_decide_eq_true low).trans (by decide)
  · rw [beq_iff_eq.1 delete]
    decide

theorem isPlain_iff : isPlain c = true ↔ isControl c = false ∧ c ≠ '\n' := by
  rw [isPlain, Bool.and_eq_true, Bool.not_eq_true', bne_iff_ne]

/-- A character is written as itself, unless it needs an escape. -/
theorem escapeChar_cases (long : Bool) (c : Char) :
    (escapeChar long c = [c] ∧ c ≠ '\\' ∧ (isPlain c = true ∨ long = true ∧ c = '\n')) ∨
      ∃ code, escapeChar long c = '\\' :: code ∧ StandsFor code c := by
  unfold escapeChar
  split
  · exact .inr ⟨_, rfl, standsFor_letter rfl⟩
  · exact .inr ⟨_, rfl, standsFor_letter rfl⟩
  · cases long with
    | false => exact .inr ⟨_, rfl, standsFor_letter rfl⟩
    | true => exact .inl ⟨rfl, by decide, .inr ⟨rfl, rfl⟩⟩
  · exact .inr ⟨_, rfl, standsFor_letter rfl⟩
  · exact .inr ⟨_, rfl, standsFor_letter rfl⟩
  · exact .inr ⟨_, rfl, standsFor_letter rfl⟩
  · next noNewline _ _ noBackslash =>
    split
    · next control =>
      refine .inr ⟨_, rfl, ?_⟩
      have small := (toNat_lt_of_isControl control).trans (by decide : 128 < Nat.pow 16 4)
      have stands := standsFor_hexDigits (n := c.toNat) c.valid small
      rwa [Char.ofNat_toNat] at stands
    · next noControl =>
      have plain := isPlain_iff.2 ⟨Bool.not_eq_true _ ▸ noControl, noNewline⟩
      exact .inl ⟨rfl, noBackslash, .inl plain⟩

/-- What is written first between double quotes: a quote that is allowed to stand there, a character
that stands for itself, or an escape. -/
theorem escape_cases (long : Bool) (allowed run : Nat) (c : Char) (s : List Char) :
    (c = '"' ∧ run < allowed ∧
        escape long allowed run (c :: s) = '"' :: escape long allowed (run + 1) s) ∨
      (c ≠ '"' ∧ c ≠ '\\' ∧ (isPlain c = true ∨ long = true ∧ c = '\n') ∧
        escape long allowed run (c :: s) = c :: escape long allowed 0 s) ∨
      ∃ code, StandsFor code c ∧
        escape long allowed run (c :: s) = '\\' :: (code ++ escape long allowed 0 s) := by
  rw [escape]
  by_cases quote : c = '"'
  · rw [if_pos quote]
    by_cases free : run < allowed
    · exact .inl ⟨quote, free, if_pos free⟩
    · exact .inr (.inr ⟨['"'], quote.symm ▸ standsFor_letter rfl, if_neg free⟩)
  · rw [if_neg quote]
    rcases escapeChar_cases long c with ⟨same, noEscape, plain⟩ | ⟨code, same, stands⟩
    · exact .inr (.inl ⟨quote, noEscape, plain, by rw [same, List.singleton_append]⟩)
    · exact .inr (.inr ⟨code, stands, by rw [same, List.cons_append]⟩)

/-! ## Strings on one line -/

theorem basic?_plain (noQuote : c ≠ '"') (noEscape : c ≠ '\\') (plain : isPlain c = true) :
    basic? (c :: t) = (basic? t).map fun (text, rest) => (c :: text, rest) := by
  rw [basic?, if_neg noQuote, if_neg noEscape, if_pos plain]
  cases basic? t <;> rfl

theorem basic?_code (stands : StandsFor code c) :
    basic? ('\\' :: (code ++ t)) = (basic? t).map fun (text, rest) => (c :: text, rest) := by
  rw [basic?, if_neg (by decide), if_pos rfl, (stands t).1]
  simp only [bind, Option.bind, List.drop_left]
  cases basic? t <;> rfl

/-- What is written between double quotes is read up to the closing one. -/
theorem basic?_escape (s rest : List Char) :
    basic? (escape false 0 run s ++ '"' :: rest) = some (s, rest) := by
  induction s generalizing run with
  | nil => rw [escape, List.nil_append, basic?, if_pos rfl]
  | cons c s ih =>
    rcases escape_cases false 0 run c s with
      ⟨-, less, -⟩ | ⟨noQuote, noEscape, plain | ⟨long, -⟩, same⟩ | ⟨code, stands, same⟩
    · cases less
    · rw [same, List.cons_append, basic?_plain noQuote noEscape plain, ih, Option.map_some]
    · cases long
    · rw [same, List.cons_append, List.append_assoc, basic?_code stands, ih, Option.map_some]

theorem literal?_append (plain : ∀ c ∈ s, isPlain c = true) (noQuote : '\'' ∉ s) :
    literal? (s ++ '\'' :: rest) = some (s, rest) := by
  induction s with
  | nil => rfl
  | cons c s ih =>
    rw [List.forall_mem_cons] at plain
    rw [List.mem_cons, not_or] at noQuote
    rw [List.cons_append, literal?, if_neg (Ne.symm noQuote.1), if_pos plain.1,
      ih plain.2 noQuote.2, Option.map_some]

/-! ## Long strings -/

/-- As many as two quotes before what is no quote belong to a long string. -/
theorem lastQuotes_replicate (few : n ≤ 2) (other : ∀ c ∈ rest.head?, c ≠ q) :
    lastQuotes q (List.replicate n q ++ rest) = (List.replicate n q, rest) := by
  match n, rest, other with
  | 0, [], _ => rfl
  | 0, [a], other => simp [lastQuotes, other a rfl]
  | 0, a :: b :: rest, other => simp [lastQuotes, other a rfl]
  | 1, [], _ => simp [lastQuotes]
  | 1, a :: rest, other => simp [lastQuotes, other a rfl]
  | 2, rest, _ => simp [lastQuotes]

/-- Where a quote is followed by two more in what a long string says and the quotes that end it, the
string ends: what it still says is at most one quote. -/
theorem exists_replicate_of_after? {inner : List Char} (apart : ¬ [q, q] <+: inner)
    (ends : after? [q, q] (inner ++ q :: q :: q :: rest) = some t) :
    ∃ n ≤ 1, inner = List.replicate n q ∧ t = List.replicate (n + 1) q ++ rest := by
  have same := after?_eq_some ends
  match inner with
  | [] => exact ⟨0, by decide, rfl, by simpa using same.symm⟩
  | [a] =>
    obtain ⟨rfl, left⟩ : a = q ∧ q :: q :: rest = t := by simpa using same
    exact ⟨1, by decide, rfl, left.symm⟩
  | a :: b :: more =>
    obtain ⟨isQuote, isQuote', -⟩ : a = q ∧ b = q ∧ _ := by simpa using same
    rw [isQuote, isQuote'] at apart
    exact absurd (List.prefix_append [q, q] more) apart

theorem ne_carriageReturn (plain : isPlain c = true ∨ c = '\n') : c ≠ '\r' := by
  rintro rfl
  exact absurd plain (by decide)

theorem longLiteral?_ends {after : List Char} (ends : after? ['\'', '\''] t = some after) :
    longLiteral? ('\'' :: t) = some (lastQuotes '\'' after) := by
  rw [longLiteral?.eq_def]
  simp only [ends]

theorem longLiteral?_cons (goesOn : c = '\'' → after? ['\'', '\''] t = none)
    (plain : isPlain c = true ∨ c = '\n') :
    longLiteral? (c :: t) = (longLiteral? t).map fun (text, rest) => (c :: text, rest) := by
  rw [longLiteral?.eq_def]
  dsimp only
  split
  · next after ends =>
    rw [goesOn rfl] at ends
    cases ends
  · rw [decide_eq_false (ne_carriageReturn plain), Bool.false_and, if_neg Bool.false_ne_true,
      if_pos (by simpa using plain)]

theorem longLiteral?_append (plain : ∀ c ∈ s, isPlain c = true ∨ c = '\n')
    (noRow : ¬ ['\'', '\'', '\''] <:+: s) (other : ∀ c ∈ rest.head?, c ≠ '\'') :
    longLiteral? (s ++ '\'' :: '\'' :: '\'' :: rest) = some (s, rest) := by
  induction s with
  | nil =>
    have ends : after? ['\'', '\''] ('\'' :: '\'' :: rest) = some rest := after?_append ..
    rw [List.nil_append, longLiteral?_ends ends]
    exact congrArg some (lastQuotes_replicate (n := 0) (by decide) other)
  | cons c s ih =>
    rw [List.forall_mem_cons] at plain
    have later := ih plain.2 fun row => noRow (List.infix_cons row)
    rw [List.cons_append]
    rcases found : after? ['\'', '\''] (s ++ '\'' :: '\'' :: '\'' :: rest) with _ | after
    · rw [longLiteral?_cons (fun _ => found) plain.1, later, Option.map_some]
    by_cases quote : c = '\''
    · -- The string ends, and what is left of it comes back as its last quotes.
      subst quote
      have apart : ¬ ['\'', '\''] <+: s := fun row =>
        noRow (List.cons_prefix_cons.2 ⟨rfl, row⟩).isInfix
      obtain ⟨n, few, rfl, rfl⟩ := exists_replicate_of_after? apart found
      rw [longLiteral?_ends found, lastQuotes_replicate (by omega) other, List.replicate_succ]
    · rw [longLiteral?_cons (absurd · quote) plain.1, later, Option.map_some]

theorem longBasic?_ends {after : List Char} (ends : after? ['"', '"'] t = some after) :
    longBasic? false ('"' :: t) = some (lastQuotes '"' after) := by
  rw [longBasic?, Bool.false_and, if_neg Bool.false_ne_true, if_pos rfl]
  simp only [ends]

theorem longBasic?_quote (goesOn : after? ['"', '"'] t = none) :
    longBasic? false ('"' :: t) =
      (longBasic? false t).map fun (text, rest) => ('"' :: text, rest) := by
  rw [longBasic?, Bool.false_and, if_neg Bool.false_ne_true, if_pos rfl]
  simp only [goesOn]

theorem longBasic?_plain (noQuote : c ≠ '"') (noEscape : c ≠ '\\')
    (plain : isPlain c = true ∨ c = '\n') :
    longBasic? false (c :: t) = (longBasic? false t).map fun (text, rest) => (c :: text, rest) := by
  rw [longBasic?, Bool.false_and, if_neg Bool.false_ne_true, if_neg noQuote, if_neg noEscape,
    decide_eq_false (ne_carriageReturn plain), Bool.false_and, if_neg Bool.false_ne_true,
    if_pos (by simpa using plain)]

theorem longBasic?_code (stands : StandsFor code c) :
    longBasic? false ('\\' :: (code ++ t)) =
      (longBasic? false t).map fun (text, rest) => (c :: text, rest) := by
  rw [longBasic?, Bool.false_and, if_neg Bool.false_ne_true, if_neg (by decide), if_pos rfl,
    (stands t).1, (stands t).2, if_neg Bool.false_ne_true]
  simp only [bind, Option.bind, List.drop_left]
  cases longBasic? false t <;> rfl

/-- Only a quote that is allowed is written as one. -/
theorem of_escape_eq_quote {long : Bool} {allowed : Nat}
    (same : escape long allowed run s = '"' :: t) :
    run < allowed ∧ ∃ more, s = '"' :: more ∧ escape long allowed (run + 1) more = t := by
  cases s with
  | nil => cases same
  | cons c s =>
    rcases escape_cases long allowed run c s with
      ⟨rfl, free, written⟩ | ⟨noQuote, -, -, written⟩ | ⟨code, -, written⟩
    · exact ⟨free, s, rfl, List.tail_eq_of_cons_eq (written.symm.trans same)⟩
    · exact absurd (List.head_eq_of_cons_eq (written.symm.trans same)) noQuote
    · exact absurd (List.head_eq_of_cons_eq (written.symm.trans same)) (by decide)

/-- After a quote there are not two more of them, for the third one is escaped. -/
theorem not_prefix_escape (after : 1 ≤ run) : ¬ ['"', '"'] <+: escape true 2 run s := by
  rintro ⟨t, row⟩
  obtain ⟨-, s', -, same⟩ := of_escape_eq_quote row.symm
  obtain ⟨free, -⟩ := of_escape_eq_quote same
  omega

theorem eq_replicate_of_escape {long : Bool} {allowed : Nat}
    (same : escape long allowed run s = List.replicate n '"') : s = List.replicate n '"' := by
  induction n generalizing s run with
  | zero =>
    cases s with
    | nil => rfl
    | cons c s =>
      rcases escape_cases long allowed run c s with
        ⟨-, -, written⟩ | ⟨-, -, -, written⟩ | ⟨code, -, written⟩ <;>
      cases written.symm.trans same
  | succ n ih =>
    obtain ⟨-, more, rfl, later⟩ := of_escape_eq_quote same
    rw [ih later, List.replicate_succ]

/-- What is written between three double quotes is read up to the closing ones. -/
theorem longBasic?_escape (s : List Char) (other : ∀ c ∈ rest.head?, c ≠ '"') :
    longBasic? false (escape true 2 run s ++ '"' :: '"' :: '"' :: rest) = some (s, rest) := by
  -- How many quotes were written before decides what is written, but not what is read.
  induction s generalizing run with
  | nil =>
    have ends : after? ['"', '"'] ('"' :: '"' :: rest) = some rest := after?_append ..
    rw [escape, List.nil_append, longBasic?_ends ends]
    exact congrArg some (lastQuotes_replicate (n := 0) (by decide) other)
  | cons c s ih =>
    rcases escape_cases true 2 run c s with
      ⟨rfl, free, same⟩ | ⟨noQuote, noEscape, plain, same⟩ | ⟨code, stands, same⟩
    · rw [same, List.cons_append]
      rcases found : after? ['"', '"']
          (escape true 2 (run + 1) s ++ '"' :: '"' :: '"' :: rest) with _ | after
      · rw [longBasic?_quote found, ih, Option.map_some]
      · obtain ⟨n, few, inner, rfl⟩ :=
          exists_replicate_of_after? (not_prefix_escape (by omega)) found
        rw [longBasic?_ends found, lastQuotes_replicate (by omega) other, List.replicate_succ,
          eq_replicate_of_escape inner]
    · rw [same, List.cons_append, longBasic?_plain noQuote noEscape (plain.imp_right And.right), ih,
        Option.map_some]
    · rw [same, List.cons_append, List.append_assoc, longBasic?_code stands, ih, Option.map_some]

/-! ## Styles -/

theorem decode_basic (goesOn : after? ['"', '"'] t = none) : decode ('"' :: t) = basic? t := by
  simp [decode, after?, goesOn]

theorem decode_literal (goesOn : after? ['\'', '\''] t = none) :
    decode ('\'' :: t) = literal? t := by
  simp [decode, after?, goesOn]

theorem decode_longBasic :
    decode ('"' :: '"' :: '"' :: t) = longBasic? false (dropFirstBreak t) := by
  simp [decode, after?]

theorem decode_longLiteral :
    decode ('\'' :: '\'' :: '\'' :: t) = longLiteral? (dropFirstBreak t) := by
  simp [decode, after?]

/-- The line feed that a long string with line feeds begins with is no part of it, and one without
them does not begin with any. -/
theorem dropFirstBreak_lead {inner : List Char}
    (oneLine : '\n' ∉ s → ∀ c ∈ inner.head?, isPlain c = true) (quote : isPlain q = true) :
    dropFirstBreak ((if s.contains '\n' then ['\n'] else []) ++ (inner ++ q :: t)) =
      inner ++ q :: t := by
  by_cases many : '\n' ∈ s
  · rw [if_pos (List.contains_iff_mem.2 many)]
    rfl
  · rw [if_neg (mt List.contains_iff_mem.1 many), List.nil_append]
    have plain : ∀ c ∈ (inner ++ q :: t).head?, isPlain c = true := by
      cases inner with
      | nil => simpa using quote
      | cons c inner => exact oneLine many
    unfold dropFirstBreak
    split
    · next same => exact absurd (plain '\n' (by rw [same]; rfl)) (by decide)
    · next same => exact absurd (plain '\r' (by rw [same]; rfl)) (by decide)
    · rfl

theorem isPlain_head?_escape {long : Bool} {allowed : Nat} (oneLine : '\n' ∉ s) :
    ∀ c ∈ (escape long allowed run s).head?, isPlain c = true := by
  cases s with
  | nil => exact fun c first => absurd first (by simp [escape])
  | cons d s =>
    rw [List.mem_cons, not_or] at oneLine
    rcases escape_cases long allowed run d s with
      ⟨-, -, same⟩ | ⟨-, -, plain, same⟩ | ⟨code, -, same⟩
    · rw [same]
      exact fun c first => Option.some.inj first ▸ by decide
    · rw [same]
      exact fun c first => Option.some.inj first ▸
        plain.resolve_right fun feed => oneLine.1 feed.2.symm
    · rw [same]
      exact fun c first => Option.some.inj first ▸ by decide

theorem decode_encodeIn_basic (s rest : List Char) :
    decode (encodeIn .basic s ++ '\n' :: rest) = some (s, '\n' :: rest) := by
  simp only [encodeIn, List.append_assoc, List.cons_append, List.nil_append]
  rw [decode_basic, basic?_escape]
  cases s with
  | nil => rfl
  | cons c s =>
    rcases escape_cases false 0 0 c s with
      ⟨-, less, -⟩ | ⟨noQuote, -, -, same⟩ | ⟨code, -, same⟩
    · cases less
    · rw [same, List.cons_append, after?, if_neg (Ne.symm noQuote)]
    · rw [same, List.cons_append, after?, if_neg (by decide)]

theorem decode_encodeIn_literal (nonempty : s ≠ []) (plain : ∀ c ∈ s, isPlain c = true)
    (noQuote : '\'' ∉ s) :
    decode (encodeIn .literal s ++ '\n' :: rest) = some (s, '\n' :: rest) := by
  simp only [encodeIn, List.append_assoc, List.cons_append, List.nil_append]
  rw [decode_literal, literal?_append plain noQuote]
  cases s with
  | nil => exact absurd rfl nonempty
  | cons c s =>
    rw [List.mem_cons, not_or] at noQuote
    rw [List.cons_append, after?, if_neg noQuote.1]

theorem decode_encodeIn_longBasic (s rest : List Char) :
    decode (encodeIn .longBasic s ++ '\n' :: rest) = some (s, '\n' :: rest) := by
  simp only [encodeIn, List.append_assoc, List.cons_append, List.nil_append]
  rw [decode_longBasic, dropFirstBreak_lead isPlain_head?_escape (by decide)]
  exact longBasic?_escape s (by simp)

theorem decode_encodeIn_longLiteral (plain : ∀ c ∈ s, isPlain c = true ∨ c = '\n')
    (noRow : ¬ ['\'', '\'', '\''] <:+: s) :
    decode (encodeIn .longLiteral s ++ '\n' :: rest) = some (s, '\n' :: rest) := by
  have first : '\n' ∉ s → ∀ c ∈ s.head?, isPlain c = true := fun oneLine c first =>
    (plain c (List.mem_of_mem_head? first)).resolve_right fun feed =>
      oneLine (feed ▸ List.mem_of_mem_head? first)
  simp only [encodeIn, List.append_assoc, List.cons_append, List.nil_append]
  rw [decode_longLiteral, dropFirstBreak_lead first (by decide)]
  exact longLiteral?_append plain noRow (by simp)

/-- The styles without escapes are chosen for strings that need none. -/
theorem choose_cases (s : List Char) :
    Style.choose s = .basic ∨ Style.choose s = .longBasic ∨
      (Style.choose s = .literal ∧ s ≠ [] ∧ (∀ c ∈ s, isPlain c = true) ∧ '\'' ∉ s) ∨
      (Style.choose s = .longLiteral ∧ (∀ c ∈ s, isPlain c = true ∨ c = '\n') ∧
        ¬ ['\'', '\'', '\''] <:+: s) := by
  by_cases none : s = []
  · exact .inl (none ▸ rfl)
  unfold Style.choose
  dsimp only
  split
  · exact .inl rfl
  split
  · next literal =>
    simp only [Bool.and_eq_true, Bool.not_eq_true', decide_eq_true_eq, List.any_eq_false,
      Bool.not_eq_true] at literal
    obtain ⟨⟨noControl, noRun⟩, oneLine⟩ := literal
    refine .inr (.inr (.inl ⟨rfl, none, fun c mem => ?_, notMem_of_longestRun noRun⟩))
    refine isPlain_iff.2 ⟨noControl c mem, fun feed => ?_⟩
    rw [List.contains_iff_mem.2 (feed ▸ mem)] at oneLine
    cases oneLine
  split
  · exact .inr (.inl rfl)
  split
  · next literal =>
    simp only [Bool.and_eq_true, Bool.not_eq_true', decide_eq_true_eq, List.any_eq_false,
      Bool.not_eq_true] at literal
    obtain ⟨noControl, short⟩ := literal
    refine .inr (.inr (.inr ⟨rfl, fun c mem => ?_, fun row => ?_⟩))
    · by_cases feed : c = '\n'
      · exact .inr feed
      · exact .inl (isPlain_iff.2 ⟨noControl c mem, feed⟩)
    · have long : 3 ≤ longestRun '\'' s := le_longestRun row
      omega
  split
  · exact .inr (.inl rfl)
  · exact .inl rfl

/-- Every style begins with a quote. -/
theorem exists_quote_encode (s : List Char) :
    ∃ q t, (q = '"' ∨ q = '\'') ∧ encode s = q :: t := by
  rw [encode]
  cases Style.choose s with
  | basic => exact ⟨_, _, .inl rfl, rfl⟩
  | literal => exact ⟨_, _, .inr rfl, rfl⟩
  | longBasic => exact ⟨_, _, .inl rfl, rfl⟩
  | longLiteral => exact ⟨_, _, .inr rfl, rfl⟩

/-- A string is read back, whatever style it has been written in, and what follows its line is
left. -/
theorem decode_encode (s rest : List Char) :
    decode (encode s ++ '\n' :: rest) = some (s, '\n' :: rest) := by
  rw [encode]
  rcases choose_cases s with
    chosen | chosen | ⟨chosen, nonempty, plain, noQuote⟩ | ⟨chosen, plain, noRow⟩
  · rw [chosen, decode_encodeIn_basic]
  · rw [chosen, decode_encodeIn_longBasic]
  · rw [chosen, decode_encodeIn_literal nonempty plain noQuote]
  · rw [chosen, decode_encodeIn_longLiteral plain noRow]

end Longform.Toml.Quoted
