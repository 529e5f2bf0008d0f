import Longform.Proofs.InlineText

/-!
# Emphasis within emphasis

Emphasised text may hold strong text, and strong text emphasised text, and so on in
turn. A closing mark is searched in the characters alone, without regard to what has
opened in between. A single mark does not close at the first asterisk of two, but at
the second it does; and a double mark closes at the first two asterisks that stand
behind text, whichever opening they belong to.

* `findClose_emphasis` and `findClose_strong` say where the marks close.
* `parse_nested`: emphasised text is read as it was written if it holds no strong
  text, and strong text if the emphasised text in it does not. Any other is cut short.
-/

namespace Longform

namespace Text

/-- A character that lies between the ranges of letters and numbers is neither. -/
theorem isAlphanumeric_of_between {c : Char} {first last : Nat} (high : 128 ≤ first)
    (within : first ≤ c.toNat ∧ c.toNat ≤ last)
    (apart : (alphanumericRanges.all fun (a, b) => b < first || last < a) = true) :
    isAlphanumeric c = false := by
  rw [isAlphanumeric, if_neg (by omega), List.any_eq_false]
  rintro ⟨a, b⟩ mem inside
  have outside := List.all_eq_true.1 apart (a, b) mem
  simp only [Bool.or_eq_true, Bool.and_eq_true, decide_eq_true_eq] at inside outside
  omega

/-- What holds of the first 128 characters holds of each. -/
theorem of_ascii {p : Char → Bool} (all : ((List.range 128).all fun n => p (Char.ofNat n)) = true)
    {c : Char} (ascii : c.toNat < 128) : p c = true := by
  have holds := List.all_eq_true.1 all c.toNat (List.mem_range.2 ascii)
  rwa [Char.ofNat_toNat] at holds

theorem not_blank_of_isAlphanumeric {c : Char} (h : isAlphanumeric c = true) :
    isBlank c = false := by
  by_cases ascii : c.toNat < 128
  · have apart :=
      of_ascii (p := fun c => !(isAlphanumeric c && isBlank c)) (by decide +kernel) ascii
    simpa [h] using apart
  · by_contra blank
    have between : ∀ {first last : Nat}, 128 ≤ first → first ≤ c.toNat → c.toNat ≤ last →
        (alphanumericRanges.all fun (a, b) => b < first || last < a) ≠ true := by
      intro first last high lower upper apart
      rw [isAlphanumeric_of_between high ⟨lower, upper⟩ apart] at h
      cases h
    simp only [isBlank, Bool.not_eq_false, Bool.or_eq_true, Bool.and_eq_true, decide_eq_true_eq,
      beq_iff_eq] at blank
    have cases : (0x85 ≤ c.toNat ∧ c.toNat ≤ 0x85) ∨ (0xA0 ≤ c.toNat ∧ c.toNat ≤ 0xA0) ∨
        (0x1680 ≤ c.toNat ∧ c.toNat ≤ 0x1680) ∨ (0x2000 ≤ c.toNat ∧ c.toNat ≤ 0x200A) ∨
        (0x2028 ≤ c.toNat ∧ c.toNat ≤ 0x202F) ∨ (0x205F ≤ c.toNat ∧ c.toNat ≤ 0x205F) ∨
        (0x3000 ≤ c.toNat ∧ c.toNat ≤ 0x3000) := by omega
    rcases cases with h | h | h | h | h | h | h
    all_goals exact between (by decide) h.1 h.2 (by decide +kernel)

theorem not_punctuation_of_isAlphanumeric {c : Char} (h : isAlphanumeric c = true) :
    isPunctuation c = false := by
  by_cases ascii : c.toNat < 128
  · have apart :=
      of_ascii (p := fun c => !(isAlphanumeric c && isPunctuation c)) (by decide +kernel) ascii
    simpa [h] using apart
  · simp only [isPunctuation, Bool.or_eq_false_iff, Bool.and_eq_false_iff, decide_eq_false_iff_not]
    omega

end Text

namespace Inline

open Text

/-! ## Words -/

/-- Words of letters and digits with one space between them. -/
structure Phrase where
  text : String
  words : ((splitOn ' ' text.toList).all fun word =>
    !word.isEmpty && word.all isAlphanumeric) = true

namespace Phrase

variable {c : Char} (p : Phrase)

/-- The characters of the words and the spaces between them. -/
def chars : List Char := p.text.toList

theorem word_of_mem {word : List Char} (mem : word ∈ splitOn ' ' p.chars) :
    word ≠ [] ∧ ∀ c ∈ word, isAlphanumeric c = true := by
  have holds := List.all_eq_true.1 p.words word mem
  simpa using holds

theorem isAlphanumeric_of_mem (mem : c ∈ p.chars) (noSpace : c ≠ ' ') :
    isAlphanumeric c = true := by
  by_contra other
  refine notMem_intercalate noSpace (fun word among inWord => ?_)
    (intercalate_splitOn ' ' p.chars ▸ mem)
  exact other ((p.word_of_mem among).2 c inWord)

theorem not_mem_of_not_isAlphanumeric (other : isAlphanumeric c = false) (noSpace : c ≠ ' ') :
    c ∉ p.chars := by
  intro mem
  rw [p.isAlphanumeric_of_mem mem noSpace] at other
  cases other

theorem nil_notMem_words : [] ∉ splitOn ' ' p.chars := fun empty => (p.word_of_mem empty).1 rfl

/-- A space stands between two words only. -/
theorem chars_ne_of_space (before after : List Char) (outer : before = [] ∨ after = []) :
    p.chars ≠ before ++ ' ' :: after := by
  intro same
  apply p.nil_notMem_words
  rw [same, splitOn_append, List.mem_append]
  rcases outer with rfl | rfl
  · exact .inl (List.mem_singleton_self _)
  · exact .inr (List.mem_singleton_self _)

theorem chars_ne_nil : p.chars ≠ [] := by
  intro none
  apply p.nil_notMem_words
  rw [none]
  exact List.mem_singleton_self _

theorem escaped_chars : escaped p.chars = p.chars := by
  have literal : ∀ c ∈ p.chars, (if isPunctuation c then ['\\', c] else [c]) = [c] := by
    intro c mem
    refine if_neg (Bool.eq_false_iff.1 ?_)
    by_cases space : c = ' '
    · rw [space]
      rfl
    · exact not_punctuation_of_isAlphanumeric (p.isAlphanumeric_of_mem mem space)
  rw [escaped, List.flatMap_congr literal, List.flatMap_singleton']

theorem isStressed : IsStressed p.text := by
  have seen : ∀ before c after, p.chars = before ++ c :: after → before = [] ∨ after = [] →
      isBlank c = false := by
    intro before c after same outer
    have noSpace : c ≠ ' ' := by
      rintro rfl
      exact p.chars_ne_of_space before after outer same
    have mem : c ∈ p.chars := by
      rw [same]
      exact List.mem_append_right before (List.mem_cons_self ..)
    exact not_blank_of_isAlphanumeric (p.isAlphanumeric_of_mem mem noSpace)
  refine ⟨?_, p.not_mem_of_not_isAlphanumeric (by decide) (by decide), ?_, ?_⟩
  · intro none
    exact p.chars_ne_nil (String.toList_eq_nil_iff.2 none)
  · change startsIn isBlank p.chars = false
    rcases same : p.chars with _ | ⟨c, after⟩
    · rfl
    · exact seen [] c after same (.inl rfl)
  · change endsIn isBlank p.chars = false
    rcases List.eq_nil_or_concat p.chars with same | ⟨before, c, same⟩
    · rw [same]
      rfl
    · rw [List.concat_eq_append] at same
      rw [same, endsIn, List.getLast?_concat]
      exact seen before c [] same (.inr rfl)

theorem star_not_mem : '*' ∉ p.chars := p.isStressed.noStar

theorem not_startsIn_blank (rest : List Char) : startsIn isBlank (p.chars ++ rest) = false := by
  rw [startsIn_append p.chars_ne_nil]
  exact p.isStressed.firstSeen

theorem not_startsIn_star (rest : List Char) : startsIn (· == '*') (p.chars ++ rest) = false := by
  rw [startsIn_append p.chars_ne_nil]
  exact startsIn_of_notMem p.star_not_mem

end Phrase

/-! ## Spans in each other -/

/-- The mark of emphasised text, or the double mark of strong text. -/
def stars (double : Bool) : Mark := ⟨'*', double⟩

/-- Emphasised and strong text in turn, each within the other; of which kind the outermost is, is
left open. -/
inductive Nested where
  /-- The innermost text. -/
  | core (text : Phrase)
  /-- A text of the other kind, between two texts. -/
  | around (before : Phrase) (inner : Nested) (after : Phrase)

namespace Nested

/-- How many spans stand in each other. -/
def depth : Nested → Nat
  | core _ => 1
  | around _ inner _ => inner.depth + 1

theorem depth_pos (t : Nested) : 0 < t.depth := by
  cases t with
  | core _ => exact Nat.one_pos
  | around _ inner _ => exact Nat.succ_pos _

/-- What the outermost span holds, which is strong text if `double`. -/
def spans : Nested → (double : Bool) → List Inline
  | core p, _ => [.text p.text]
  | around b inner a, double =>
    [.text (b.text ++ " "), (stars !double).apply (inner.spans !double), .text (" " ++ a.text)]

/-- The outermost span, strong text if `double` and emphasised text if not. -/
def span (t : Nested) (double : Bool) : Inline := (stars double).apply (t.spans double)

/-- What is taken for the inside of strong text: all up to where the innermost strong text ends. -/
def taken : Nested → List Char
  | core p => p.chars
  | around b (core p) a => b.chars ++ [' ', '*'] ++ p.chars ++ ['*', ' '] ++ a.chars
  | around b (around b' inner _) _ =>
    b.chars ++ [' ', '*'] ++ b'.chars ++ [' ', '*', '*'] ++ inner.taken

end Nested

variable {inner rest s : List Char} {double : Bool}

/-! ## What is written -/

theorem written_apply (double : Bool) (spans : List Inline) :
    written ((stars double).apply spans) =
      (stars double).written ++ (writtenAll spans ++ (stars double).written) := by
  cases double <;> rfl

theorem writtenAll_core (p : Phrase) (double : Bool) :
    writtenAll ((Nested.core p).spans double) = p.chars := by
  rw [Nested.spans, writtenAll, writtenAll, written, List.append_nil]
  exact p.escaped_chars

theorem writtenAll_around (b a : Phrase) (t : Nested) (double : Bool) :
    writtenAll ((Nested.around b t a).spans double) =
      b.chars ++ ' ' :: ((stars !double).written ++ (writtenAll (t.spans !double) ++
        ((stars !double).written ++ ' ' :: a.chars))) := by
  have before : escaped (b.text ++ " ").toList = b.chars ++ [' '] := by
    rw [String.toList_append, escaped, List.flatMap_append, ← escaped]
    exact congrArg (· ++ [' ']) b.escaped_chars
  have after : escaped (" " ++ a.text).toList = ' ' :: a.chars := by
    rw [String.toList_append, escaped, List.flatMap_append, ← escaped, ← escaped]
    exact congrArg (' ' :: ·) a.escaped_chars
  simp only [Nested.spans, writtenAll, written, written_apply, before, after, List.append_nil,
    List.append_assoc, List.cons_append, List.nil_append]

/-! ## Where marks close -/

/-- A mark does not close behind a space, and is passed over whole. -/
theorem findClose_behind_space (m : Mark) (inner rest : List Char) :
    m.findClose (' ' :: inner) (m.written ++ rest) =
      m.findClose (m.written.reverse ++ ' ' :: inner) rest := by
  have still : m.closes (' ' :: inner) rest = false := rfl
  rw [findClose_mark, still, if_neg Bool.false_ne_true]

/-- A mark closes behind text that does not end in a blank. -/
theorem closes_of_seen (some : inner ≠ []) (seen : startsIn isBlank inner = false)
    (apart : double = false → startsIn (· == '*') rest = false) :
    (stars double).closes inner rest = true := by
  rw [Mark.closes, seen]
  cases double with
  | false => simp [stars, apart rfl, some]
  | true => simp [stars, some]

/-- A mark closes behind words. -/
theorem closes_of_phrase (p : Phrase) (before : List Char)
    (apart : double = false → startsIn (· == '*') rest = false) :
    (stars double).closes (p.chars.reverse ++ before) rest = true := by
  have some : p.chars.reverse ≠ [] := by simpa using p.chars_ne_nil
  refine closes_of_seen (List.append_ne_nil_of_left_ne_nil some before) ?_ apart
  rw [startsIn_append some, startsIn_reverse]
  exact p.isStressed.lastSeen

/-- Words are passed over. -/
theorem findClose_phrase (p : Phrase) (inner rest : List Char) :
    (stars double).findClose inner (p.chars ++ rest) =
      (stars double).findClose (p.chars.reverse ++ inner) rest :=
  findClose_append (m := stars double) p.star_not_mem inner rest

/-- A space is passed over. -/
theorem findClose_space (inner rest : List Char) :
    (stars double).findClose inner (' ' :: rest) =
      (stars double).findClose (' ' :: inner) rest :=
  findClose_append (m := stars double) (s := [' ']) (by simp [stars]) inner rest

/-- One asterisk is passed over where a double mark is searched. -/
theorem findClose_single (apart : startsIn (· == '*') rest = false) (inner : List Char) :
    (stars true).findClose inner ('*' :: rest) = (stars true).findClose ('*' :: inner) rest := by
  have alone : after? (stars true).written ('*' :: rest) = none := by
    cases rest with
    | nil => rfl
    | cons c rest => exact if_neg (Ne.symm (ne_of_beq_false apart))
  rw [Mark.findClose]
  split
  · next found => cases alone.symm.trans found
  · rfl

/-- A mark closes behind the words of the innermost text. -/
theorem findClose_core (double : Bool) (p : Phrase) (inner rest : List Char)
    (apart : double = false → startsIn (· == '*') rest = false) :
    (stars double).findClose inner (p.chars ++ ((stars double).written ++ rest)) =
      some (inner.reverse ++ p.chars, rest) := by
  rw [findClose_phrase, findClose_written (closes_of_phrase p inner apart), List.reverse_append,
    List.reverse_reverse]

/-- The mark of emphasised text closes at the second asterisk of a double mark that opens in it. -/
theorem findClose_emphasis (p : Phrase) (apart : startsIn (· == '*') rest = false) :
    (stars false).findClose [] (p.chars ++ ' ' :: '*' :: '*' :: rest) =
      some (p.chars ++ [' ', '*'], rest) := by
  have closes : (stars false).closes ('*' :: ' ' :: (p.chars.reverse ++ [])) rest = true := by
    rw [Mark.closes, stars, apart]
    rfl
  have first : (stars false).findClose (' ' :: (p.chars.reverse ++ [])) ('*' :: '*' :: rest) =
      (stars false).findClose ('*' :: ' ' :: (p.chars.reverse ++ [])) ('*' :: rest) :=
    findClose_behind_space _ _ _
  have second : (stars false).findClose ('*' :: ' ' :: (p.chars.reverse ++ [])) ('*' :: rest) =
      some (('*' :: ' ' :: (p.chars.reverse ++ [])).reverse, rest) := findClose_written closes
  rw [findClose_phrase, findClose_space, first, second]
  simp

/-- A double mark closes where the innermost strong text ends. What is left over is more than what
follows the strong text if other strong text is in it. -/
theorem findClose_strong (t : Nested) (inner rest : List Char) :
    ∃ left, (stars true).findClose inner (writtenAll (t.spans true) ++ '*' :: '*' :: rest) =
        some (inner.reverse ++ t.taken, left) ∧
      (t.depth ≤ 2 → left = rest) ∧ (2 < t.depth → left ≠ []) := by
  induction t using Nested.taken.induct generalizing inner rest with
  | case1 p =>
    refine ⟨rest, ?_, fun _ => rfl, fun deep => ?_⟩
    · rw [writtenAll_core]
      exact findClose_core true p inner rest nofun
    · simp [Nested.depth] at deep
  | case2 b p a =>
    refine ⟨rest, ?_, fun _ => rfl, fun deep => ?_⟩
    · rw [writtenAll_around, writtenAll_core]
      change (stars true).findClose inner (b.chars ++ ' ' :: '*' ::
        (p.chars ++ '*' :: ' ' :: a.chars) ++ '*' :: '*' :: rest) = _
      simp only [List.append_assoc, List.cons_append]
      rw [findClose_phrase, findClose_space, findClose_single (p.not_startsIn_star _),
        findClose_phrase, findClose_single rfl, findClose_space]
      refine (findClose_core true a _ rest nofun).trans ?_
      simp [Nested.taken]
    · simp [Nested.depth] at deep
  | case3 b b' t a' a ih =>
    -- The double mark that opens here stands behind a space, and is passed over.
    obtain ⟨left, found, whole, part⟩ :=
      ih ('*' :: '*' :: ' ' :: (b'.chars.reverse ++ '*' :: ' ' :: (b.chars.reverse ++ inner)))
        (' ' :: (a'.chars ++ '*' :: ' ' :: (a.chars ++ '*' :: '*' :: rest)))
    refine ⟨left, ?_, fun shallow => ?_, fun _ => ?_⟩
    · rw [writtenAll_around, writtenAll_around]
      change (stars true).findClose inner (b.chars ++ ' ' :: '*' ::
        (b'.chars ++ ' ' :: '*' :: '*' ::
          (writtenAll (t.spans true) ++ '*' :: '*' :: ' ' :: a'.chars) ++ '*' :: ' ' :: a.chars)
        ++ '*' :: '*' :: rest) = _
      simp only [List.append_assoc, List.cons_append]
      rw [findClose_phrase, findClose_space, findClose_single (b'.not_startsIn_star _),
        findClose_phrase, findClose_space]
      refine (findClose_behind_space _ _ _).trans (found.trans ?_)
      simp [Nested.taken]
    · have some := t.depth_pos
      simp only [Nested.depth] at shallow
      omega
    · rcases Nat.lt_or_ge 2 t.depth with deep | shallow
      · exact part deep
      · rw [whole shallow]
        exact List.cons_ne_nil _ _

/-! ## Reading -/

theorem gather_ne_nil (prev : Option Char) (some : s ≠ []) : gather (pieces prev s) ≠ [] := by
  obtain ⟨c, t, rfl⟩ := List.exists_cons_of_ne_nil some
  rcases opens : span? prev (c :: t) with _ | ⟨o, rest⟩
  · rw [pieces_literal opens]
    exact List.cons_ne_nil _ _
  · rw [pieces_opening opens]
    exact List.cons_ne_nil _ _

/-- What a span holds begins with words. -/
theorem writtenAll_starts (t : Nested) (double : Bool) :
    ∃ (p : Phrase) (s : List Char), writtenAll (t.spans double) = p.chars ++ s := by
  cases t with
  | core p => exact ⟨p, [], by rw [writtenAll_core, List.append_nil]⟩
  | around b inner a => exact ⟨b, _, writtenAll_around b a inner double⟩

/-- Text between asterisks is read up to where the mark is found to close. -/
theorem gather_between_stars {inside body left : List Char}
    (seen : startsIn isBlank (inside ++ (stars double).written) = false)
    (single : double = false → startsIn (· == '*') (inside ++ ['*']) = false)
    (found : (stars double).findClose [] (inside ++ (stars double).written) = some (body, left)) :
    gather (pieces none ((stars double).written ++ (inside ++ (stars double).written))) =
      (stars double).apply (gather (pieces none body)) :: gather (pieces (some '*') left) := by
  have holds : (stars double).body? none (inside ++ (stars double).written) =
      some (body, left) := by
    rw [Mark.body?, seen]
    exact found
  have opens : span? none ((stars double).written ++ (inside ++ (stars double).written)) =
      some (.marked (stars double) body, left) := by
    cases double with
    | false => exact (span?_single (single rfl) none).trans (congrArg (Option.map _) holds)
    | true => exact congrArg (Option.map _) holds
  rw [pieces_opening opens]
  rfl

/-- The outermost span is read up to where its mark is found to close. -/
theorem parse_span {t : Nested} {body left : List Char}
    (found : (stars double).findClose [] (writtenAll (t.spans double) ++ (stars double).written) =
      some (body, left)) :
    parse (String.ofList (written (t.span double))) =
      (stars double).apply (gather (pieces none body)) :: gather (pieces (some '*') left) := by
  obtain ⟨p, s, begins⟩ := writtenAll_starts t double
  rw [parse, String.toList_ofList, Nested.span, written_apply]
  refine gather_between_stars ?_ (fun _ => ?_) found
  · rw [begins, List.append_assoc]
    exact p.not_startsIn_blank _
  · rw [begins, List.append_assoc]
    exact p.not_startsIn_star _

/-- An asterisk with nothing behind it is literal. -/
theorem pieces_star (prev : Option Char) : pieces prev ['*'] = [.inl '*'] := by
  have alone : span? prev ['*'] = none := by
    rw [span?_single rfl, Mark.body?, Mark.findClose]
    exact congrArg (Option.map _) (ite_self none)
  rw [pieces_literal alone]
  exact congrArg (_ :: ·) (pieces_nil _)

/-- Literal text with a literal tail is read as one text. -/
theorem gather_escaped_append {tail : List Char}
    (literal : ∀ prev, pieces prev tail = tail.map .inl) (some : s ++ tail ≠ [])
    (prev : Option Char) :
    gather (pieces prev (escaped s ++ tail)) = [.text (String.ofList (s ++ tail))] := by
  have nonempty : String.ofList (s ++ tail) ≠ "" := by
    intro none
    apply some
    rw [← String.toList_ofList (l := s ++ tail), none]
    rfl
  have chars : (String.ofList (s ++ tail)).toList.map Sum.inl ++ [] =
      (s.map .inl ++ tail.map .inl : List Piece) := by
    rw [String.toList_ofList, List.map_append, List.append_nil]
  obtain ⟨last, read⟩ := pieces_escaped prev s tail
  rw [read, literal, ← chars, gather_text nonempty rfl]
  rfl

theorem gather_core (p : Phrase) : gather (pieces none p.chars) = [.text p.text] := by
  rw [← p.escaped_chars]
  exact gather_escaped p.isStressed.nonempty

/-- Words with an asterisk behind them are one text. -/
theorem gather_single (p : Phrase) :
    gather (pieces none (p.chars ++ [' ', '*'])) = [.text (p.text ++ " *")] := by
  have literal (prev : Option Char) : pieces prev [' ', '*'] = [.inl ' ', .inl '*'] := by
    have space : span? prev [' ', '*'] = none := span?_of_notMem (by decide)
    rw [pieces_literal space]
    exact congrArg (_ :: ·) (pieces_star _)
  have whole : String.ofList (p.chars ++ [' ', '*']) = p.text ++ " *" := by
    rw [String.ofList_append, Phrase.chars, String.ofList_toList]
  rw [← p.escaped_chars, gather_escaped_append literal (by simp), whole]

/-- Emphasised text between words is read as it was written. -/
theorem gather_emphasis_between (b p a : Phrase) :
    gather (pieces none (Nested.around b (.core p) a).taken) =
      (Nested.around b (.core p) a).spans true := by
  let spans : List Inline :=
    [.text (b.text ++ " "), .emphasis [.text p.text], .text (" " ++ a.text)]
  have whole : (Nested.around b (.core p) a).taken = writtenAll spans := by
    change _ = writtenAll ((Nested.around b (.core p) a).spans true)
    rw [writtenAll_around, writtenAll_core]
    simp [Nested.taken, stars, Mark.written, Mark.tail]
  have legible : ∀ i ∈ spans, Legible i := by
    simp only [spans, List.forall_mem_cons]
    exact ⟨.text (by simp), .emphasis p.isStressed, .text (by simp), List.forall_mem_nil _⟩
  have apart : spans.IsChain fun i j => mayPrecede i j = true := by simp [spans, mayPrecede]
  rw [whole, pieces_writtenAll legible apart, gather_flatMap legible apart]
  rfl

/-- Strong text of which no strong text is part is taken whole, and what it holds is read as it was
written. -/
theorem gather_taken {t : Nested} (shallow : t.depth ≤ 2) :
    gather (pieces none t.taken) = t.spans true := by
  cases t with
  | core p => exact gather_core p
  | around b inner a =>
    cases inner with
    | core p => exact gather_emphasis_between b p a
    | around b' inner' a' =>
      have deep := inner'.depth_pos
      simp only [Nested.depth] at shallow
      omega

/-- Emphasised text that holds no strong text is read as it was written. -/
theorem parse_emphasis_core (p : Phrase) :
    parse (String.ofList (written ((Nested.core p).span false))) =
      [(Nested.core p).span false] := by
  have found : (stars false).findClose []
      (writtenAll ((Nested.core p).spans false) ++ (stars false).written) = some (p.chars, []) := by
    rw [writtenAll_core]
    exact findClose_core false p [] [] fun _ => rfl
  rw [parse_span found, gather_core, pieces_nil]
  rfl

/-- Emphasised text that holds strong text ends at the second asterisk of the mark that opens it. -/
theorem parse_emphasis_around (b a : Phrase) (t : Nested) :
    ∃ more, more ≠ [] ∧ parse (String.ofList (written ((Nested.around b t a).span false))) =
      .emphasis [.text (b.text ++ " *")] :: more := by
  let left := writtenAll (t.spans true) ++ '*' :: '*' :: ' ' :: (a.chars ++ ['*'])
  have remains : left ≠ [] := List.append_ne_nil_of_right_ne_nil _ (List.cons_ne_nil _ _)
  have found : (stars false).findClose []
      (writtenAll ((Nested.around b t a).spans false) ++ (stars false).written) =
        some (b.chars ++ [' ', '*'], left) := by
    obtain ⟨p, s, begins⟩ := writtenAll_starts t true
    have apart : startsIn (· == '*') left = false := by
      change startsIn _ (writtenAll (t.spans true) ++ _) = false
      rw [begins, List.append_assoc]
      exact p.not_startsIn_star _
    rw [writtenAll_around, ← findClose_emphasis b apart]
    simp [left, stars, Mark.written, Mark.tail]
  refine ⟨gather (pieces (some '*') left), gather_ne_nil _ remains, ?_⟩
  rw [parse_span found, gather_single]
  rfl

/-- Strong text ends where the innermost strong text does, and what is behind that is left over. -/
theorem parse_strong (t : Nested) :
    ∃ left, parse (String.ofList (written (t.span true))) =
        .strong (gather (pieces none t.taken)) :: gather (pieces (some '*') left) ∧
      (t.depth ≤ 2 → left = []) ∧ (2 < t.depth → left ≠ []) := by
  obtain ⟨left, found, ends⟩ := findClose_strong t [] []
  exact ⟨left, parse_span found, ends⟩

/-- Which emphasised and strong texts in turn are read as they were written. Emphasised text is if
it holds no strong text. If it does, it ends at the second asterisk of the mark that opens the
strong text, and something is left over. Strong text is if the emphasised text in it holds no strong
text. If it does, the outermost strong text ends where the innermost does, and something is left
over. -/
theorem parse_nested (t : Nested) :
    (parse (String.ofList (written (t.span false))) = [t.span false] ↔ t.depth = 1) ∧
    (parse (String.ofList (written (t.span true))) = [t.span true] ↔ t.depth ≤ 2) ∧
    (∀ before inner after, t = .around before inner after → ∃ more, more ≠ [] ∧
      parse (String.ofList (written (t.span false))) =
        .emphasis [.text (before.text ++ " *")] :: more) ∧
    (2 < t.depth → ∃ more, more ≠ [] ∧
      parse (String.ofList (written (t.span true))) =
        .strong (parse (String.ofList t.taken)) :: more) := by
  obtain ⟨left, strong, whole, part⟩ := parse_strong t
  refine ⟨?_, ⟨?_, ?_⟩, ?_, ?_⟩
  · cases t with
    | core p => exact ⟨fun _ => rfl, fun _ => parse_emphasis_core p⟩
    | around b inner a =>
      obtain ⟨more, remains, read⟩ := parse_emphasis_around b a inner
      constructor
      · intro same
        rw [read] at same
        exact absurd (List.cons.inj same).2 remains
      · intro single
        exact absurd (Nat.succ.inj single) inner.depth_pos.ne'
  · intro same
    by_contra deep
    rw [strong] at same
    exact gather_ne_nil (some '*') (part (Nat.lt_of_not_le deep)) (List.cons.inj same).2
  · intro shallow
    rw [strong, whole shallow, gather_taken shallow, pieces_nil]
    rfl
  · rintro before inner after rfl
    exact parse_emphasis_around before after inner
  · intro deep
    refine ⟨_, gather_ne_nil (some '*') (part deep), ?_⟩
    rw [strong, parse, String.toList_ofList]

/-- The second asterisk of the mark that opens the strong text closes the emphasised text. -/
theorem strong_in_emphasis_cut :
    ∃ t : Nested, t.span false = .emphasis [.text "a ", .strong [.text "b"], .text " c"] ∧
      String.ofList (written (t.span false)) = "*a **b** c*" ∧
      parse "*a **b** c*" ≠ [t.span false] := by
  let t : Nested := .around ⟨"a", by decide⟩ (.core ⟨"b", by decide⟩) ⟨"c", by decide⟩
  have written : String.ofList (written (t.span false)) = "*a **b** c*" := by decide
  refine ⟨t, rfl, written, ?_⟩
  obtain ⟨more, remains, read⟩ :=
    parse_emphasis_around ⟨"a", by decide⟩ ⟨"c", by decide⟩ (.core ⟨"b", by decide⟩)
  intro same
  rw [← written, read] at same
  exact remains (List.cons.inj same).2

end Inline

end Longform
